/- module: LldbDebugMcp/Backend/StopWaiter
   source: crates/lldb-backend/src/backend.rs, crates/dap-client/src/stop_waiter.rs
   digest: What becomes of a stop that is handed to the waiter of a call. -/

import LldbDebugMcp.Backend.Parts
import LldbDebugMcp.Backend.ResumeCall

set_option autoImplicit false
set_option relaxedAutoImplicit false

namespace LldbDebugMcp.Backend.StopWaiter

open LldbDebugMcp.Core.Types
open LldbDebugMcp.Client.Message
open LldbDebugMcp.Client.State
open LldbDebugMcp.Client.ReadLoop
open LldbDebugMcp.Library.Channel
open LldbDebugMcp.Library.Effect
open LldbDebugMcp.Library.Transition
open LldbDebugMcp.Backend
open LldbDebugMcp.Backend.Operations
open LldbDebugMcp.Backend.Adapter
open LldbDebugMcp.Backend.Steps
open LldbDebugMcp.Backend.Parts
open LldbDebugMcp.Backend.ResumeCall

/-- How far a call is with its stop waiter. -/
inductive Hearing where
  | deaf
  | listening
  | heard (r : Option StopOutcome)

def hearingAfter : Hearing → (i : Op) → i.Result → Hearing
  | .deaf, .register, _ => .listening
  | .listening, .recvStop, r => .heard r
  | g, _, _ => g

/-- A call registers once, receives only what it has registered for, and does nothing after
that. -/
def hearingOk : Hearing → Op → Prop
  | .deaf, .recvStop => False
  | .deaf, _ => True
  | .listening, .register => False
  | .listening, _ => True
  | .heard _, _ => False

/-- The reply of a call that has failed. -/
def fails : Reply → Prop
  | .launch (.error _) | .attach (.error _) | .resume (.error _) => True
  | _ => False

/-- The reply that reports a stop. -/
def reports (info : StopInfo) : Reply → Prop
  | .launch (.ok (.stopped i)) | .attach (.ok (.stopped i)) | .resume (.ok (.stopped i)) => i = info
  | _ => False

/-- A call that has registered fails or reports the stop that it has received. -/
def hearingDone : Hearing → Reply → Prop
  | .deaf, _ => True
  | .listening, reply => fails reply
  | .heard r, reply => ∀ info, r = some (.stopped info) → reports info reply

/-! What each call follows. -/

abbrev Part {α : Type} (g : Hearing) (post : Hearing → α → Prop) (x : Checked α) : Prop :=
  Program.Yields hearingOk hearingAfter (fun g _ => g = .deaf ∨ g = .listening) post g x

theorem rests_deaf : Rests hearingOk hearingAfter .deaf := fun i exchanges => by
  cases i <;> first | exact exchanges.elim | exact ⟨trivial, fun _ => rfl⟩

theorem asks_deaf : Asks hearingOk hearingAfter .deaf := rests_deaf.asks

private theorem asks_listening : Asks hearingOk hearingAfter .listening := fun i asks => by
  cases i <;> first | exact asks.elim | exact ⟨trivial, fun _ => rfl⟩

private theorem stays_wait :
    Stays hearingOk hearingAfter .deaf (liftM (perform .waitInitialized)) :=
  Program.yields_lift ⟨trivial, fun _ => rfl⟩

private theorem part_register :
    Part .deaf (fun g _ => g = .listening) (liftM (perform .register)) :=
  Program.yields_lift ⟨trivial, fun _ => rfl⟩

/-- A call that has succeeded has heard of what it reports, if it has listened. -/
private def tells {α : Type} (stopped : StopInfo → α) : Hearing → α → Prop
  | .deaf, _ => True
  | .listening, _ => False
  | .heard r, outcome => ∀ info, r = some (.stopped info) → outcome = stopped info

/-- The launch, whatever is asked of the wait that it ends with. -/
theorem part_launch {post : Hearing → LaunchOutcome → Prop} (spec : LaunchSpec)
    (entry : Part .listening post (awaitEntry true)) (running : post .deaf .running) :
    Part .deaf post (runLaunch spec) := by
  unfold runLaunch
  refine (stays_exchange asks_deaf).andThen (fun _ => .inl rfl) fun _ =>
    (stays_sendAsync rests_deaf _ _).andThen (fun _ => .inl rfl) fun _ =>
    stays_wait.andThen (fun _ => .inl rfl) fun _ =>
    (stays_flushSource asks_deaf _).andThen (fun _ => .inl rfl) fun _ =>
    (stays_flushFunction asks_deaf _).andThen (fun _ => .inl rfl) fun _ =>
    (stays_sendOr asks_deaf _ _).andThen (fun _ => .inl rfl) fun _ => ?_
  cases spec.stopOnEntry with
  | true =>
    simp only [if_true]
    refine part_register.bind fun g _ h => ?_
    subst h
    exact yields_configured asks_listening (fun _ => .inr rfl) entry
  | false =>
    simp only [Bool.false_eq_true, if_false]
    exact yields_configured asks_deaf (fun _ => .inl rfl) running

/-- The attach, whatever is asked of the wait that it ends with. -/
theorem part_attach {post : Hearing → AttachOutcome → Prop} (spec : AttachSpec)
    (attached : Part .listening post awaitAttached) : Part .deaf post (runAttach spec) := by
  unfold runAttach
  refine (stays_exchange asks_deaf).andThen (fun _ => .inl rfl) fun _ =>
    (stays_sendAsync rests_deaf _ _).andThen (fun _ => .inl rfl) fun _ =>
    stays_wait.andThen (fun _ => .inl rfl) fun _ =>
    (stays_sendOr asks_deaf _ _).andThen (fun _ => .inl rfl) fun _ =>
    yields_configured asks_deaf (fun _ => .inl rfl) ?_
  refine part_register.bind fun g _ h => ?_
  subst h
  exact attached

private theorem part_runLaunch (spec : LaunchSpec) :
    Part .deaf (tells .stopped) (runLaunch spec) := by
  refine part_launch spec ⟨trivial, fun r => ?_⟩ trivial
  rcases r with _ | (info | code | _) <;> intro i h <;> cases h
  rfl

private theorem part_runAttach (spec : AttachSpec) :
    Part .deaf (tells .stopped) (runAttach spec) := by
  refine part_attach spec ⟨trivial, fun r => ?_⟩
  rcases r with _ | (info | code | _) <;> intro i h <;> cases h
  rfl

private theorem part_resumeAndWait (request : Request) :
    Part .deaf (tells .stopped) (resumeAndWait request) := by
  refine ⟨trivial, fun _ => ⟨trivial, fun r => ?_⟩⟩
  cases r with
  | error e => exact .inr rfl
  | ok message =>
    refine ⟨trivial, fun r => ?_⟩
    rcases r with _ | (info | code | _) <;> intro i h <;> cases h
    rfl

/-- The reply of a launch, an attach or a resume. -/
private theorem follows_part {α : Type} {stopped : StopInfo → α} {x : Checked α}
    (part : Part .deaf (tells stopped) x) {reply : Except BackendError α → Reply}
    (failed : ∀ e, fails (reply (.error e)))
    (reported : ∀ info, reports info (reply (.ok (stopped info)))) :
    Program.Safe hearingOk hearingAfter hearingDone .deaf
      (x.run.bind fun r => .done (reply r)) := by
  refine Program.Safe.bind part fun g r h => ?_
  cases r with
  | error e =>
    rcases h with rfl | rfl
    · trivial
    · exact failed e
  | ok outcome =>
    cases g with
    | deaf => trivial
    | listening => exact h.elim
    | heard r =>
      intro info eq
      obtain rfl : outcome = stopped info := h info eq
      exact reported info

/-- What every call follows from its beginning. -/
theorem call_hears (call : Call) :
    Program.Safe hearingOk hearingAfter hearingDone .deaf call.program := by
  cases call with
  | launch spec => exact follows_part (part_runLaunch spec) (fun _ => trivial) fun _ => rfl
  | attach spec => exact follows_part (part_runAttach spec) (fun _ => trivial) fun _ => rfl
  | cont threadId =>
    exact @follows_part _ _ _ (part_resumeAndWait _) .resume (fun _ => trivial) fun _ => rfl
  | step kind threadId gran =>
    exact @follows_part _ _ _ (part_resumeAndWait _) .resume (fun _ => trivial) fun _ => rfl
  | pause =>
    refine Program.Safe.bind (stays_pause asks_deaf) fun g r h => ?_
    cases r <;>
      · change g = .deaf at h
        subst h
        trivial
  | disconnect terminate =>
    refine ⟨trivial, fun _ => ⟨trivial, fun taken => ?_⟩⟩
    cases taken with
    | true => exact ⟨trivial, fun _ => ⟨trivial, fun _ => trivial⟩⟩
    | false => trivial

/-! The waiter of a call in flight. -/

variable {c c' : Connection} {f f' : Fut} {choice : Choice} {a : Action} {t w : Nat}
  {info : StopInfo}

/-- What the stage of a call says about the waiter that it holds. -/
def HeardAt (c : Connection) (f : Fut) : Hearing → Prop
  | .deaf => f.waiter = none
  | .listening => ∃ w, f.waiter = some w
  | .heard r => ∃ w v, f.waiter = some w ∧ Answered w v c.link.shared ∧ v.poll = some r

def Hears (c : Connection) (f : Fut) : Prop :=
  ∃ g, Program.Safe hearingOk hearingAfter hearingDone g f.program ∧ HeardAt c f g

theorem HeardAt.moves {g : Hearing} (at_ : HeardAt c f g) (moves : Moves c a c')
    (kept : f'.waiter = f.waiter) : HeardAt c' f' g := by
  cases g with
  | deaf => exact kept.trans at_
  | listening => exact at_.imp fun w h => kept.trans h
  | heard r =>
    obtain ⟨w, v, waiter, answered, settled⟩ := at_
    exact ⟨w, v, kept.trans waiter, answered.moves moves, settled⟩

/-- What a poll does to the waiter of its call: the call registers, it receives, or it does
neither. -/
inductive Listens (c : Connection) (f f' : Fut) : Prop where
  | stays (kept : f'.waiter = f.waiter) (same : f'.program = f.program)
  | performs {i : Op} {next : i.Result → Dap Reply} {r : i.Result} (kept : f'.waiter = f.waiter)
      (at_ : f.program = .op i next) (after : f'.program = next r)
      (still : ∀ g, hearingOk g i → hearingAfter g i r = g)
  | registers {next : Unit → Dap Reply} (at_ : f.program = .op .register next)
      (after : f'.program = next ()) (waiter : f'.waiter = some c.link.shared.stopWaiter.next)
  | receives {next : Option StopOutcome → Dap Reply} {w : Nat} {r : Option StopOutcome}
      (kept : f'.waiter = f.waiter) (at_ : f.program = .op .recvStop next)
      (after : f'.program = next r) (waiter : f.waiter = some w)
      (settled : (c.link.shared.stopWaiter.chan w).poll = some r)

theorem listens (h : Advances c f choice c' f') : Listens c f f' := by
  have still : ∀ {i : Op} {r : i.Result}, i ≠ .register → i ≠ .recvStop → ∀ g, hearingOk g i →
      hearingAfter g i r = g := by
    intro i r notRegister notReceive g ok
    cases g with
    | deaf => cases i <;> first | rfl | exact absurd rfl notRegister
    | listening => cases i <;> first | rfl | exact absurd rfl notReceive
    | heard => exact ok.elim
  cases h with
  | registered | registeredAsync | parked | accepted => exact .stays rfl rfl
  | registeredStop _ at_ => exact .registers at_ rfl rfl
  | gotStop _ at_ waiter settled => exact .receives rfl at_ rfl waiter settled
  | latched _ at_ | gotReply _ at_ | stderr _ at_ | tookChild _ at_ | killed _ at_
  | reaped _ at_ | acceptedAsync _ at_ | refused _ at_ | refusedAsync _ at_ | replied _ at_
  | woken _ at_ => exact .performs rfl at_ rfl (still (by simp) (by simp))

/-- What has been settled for the waiter of a sound call stays. -/
private theorem answered_of_settled (sound : Sound c) (here : c.calls t = some f)
    (waiter : f.waiter = some w) (settled : c.link.shared.stopWaiter.chan w ≠ .empty) :
    Answered w (c.link.shared.stopWaiter.chan w) c.link.shared where
  gone slot := settled (sound.link.shared.stopWaiter.slot_empty w slot)
  registered := (sound.calls t f here).waiter w waiter
  outcome := rfl

/-- A poll keeps a call on its stages, whatever is asked of its reply. -/
theorem hears_poll {post : Hearing → Reply → Prop} (sound : Sound c) (here : c.calls t = some f)
    (hears : ∃ g, Program.Safe hearingOk hearingAfter post g f.program ∧ HeardAt c f g)
    (moves : Moves c a c') (listens : Listens c f f') :
    ∃ g, Program.Safe hearingOk hearingAfter post g f'.program ∧ HeardAt c' f' g := by
  obtain ⟨g, safe, at_g⟩ := hears
  cases listens with
  | stays kept same => exact ⟨g, same ▸ safe, at_g.moves moves kept⟩
  | @performs i next r kept at_ after still =>
    rw [at_] at safe
    refine ⟨g, ?_, at_g.moves moves kept⟩
    rw [after, ← still g safe.1]
    exact safe.2 r
  | registers at_ after waiter =>
    rw [at_] at safe
    cases g with
    | deaf => exact ⟨.listening, after ▸ safe.2 (), _, waiter⟩
    | listening => exact safe.1.elim
    | heard => exact safe.1.elim
  | @receives next w r kept at_ after waiter settled =>
    rw [at_] at safe
    cases g with
    | deaf => exact safe.1.elim
    | heard => exact safe.1.elim
    | listening =>
      have full : c.link.shared.stopWaiter.chan w ≠ .empty := fun empty => by
        rw [empty] at settled
        cases settled
      have answered := answered_of_settled sound here waiter full
      exact ⟨.heard r, after ▸ safe.2 r, w, _, kept.trans waiter, answered.moves moves, settled⟩

/-- Every call in flight follows its stages. -/
theorem Served.hears (served : Served c) (here : c.calls t = some f) : Hears c f :=
  served.calls (J := Hears) (fun _ call => ⟨.deaf, call_hears call, rfl⟩)
    (fun _ _ _ _ ⟨g, safe, at_g⟩ moves => ⟨g, safe, at_g.moves moves rfl⟩)
    (fun _ _ _ _ _ _ served here advances hears =>
      hears_poll served.sound here hears (.poll here advances) (listens advances)) t f here

/-! A stop that the waiter of a call was handed. -/

def Handed (c : Connection) (f : Fut) (info : StopInfo) : Prop :=
  ∃ w, f.waiter = some w ∧ Answered w (.sent (.stopped info)) c.link.shared

theorem Handed.moves (handed : Handed c f info) (moves : Moves c a c') : Handed c' f info :=
  handed.imp fun _ h => ⟨h.1, h.2.moves moves⟩

private theorem Handed.poll {k : Connection} (hears : Hears c f) (handed : Handed c f info)
    (here : c.calls t = some f) (advances : Advances c f choice k f') :
    Handed (k.setCall t (some f')) f' info := by
  obtain ⟨w, waiter, answered⟩ := handed
  have kept : f'.waiter = f.waiter := by
    cases listens advances with
    | stays kept | performs kept | receives kept => exact kept
    | registers at_ =>
      obtain ⟨g, safe, at_g⟩ := hears
      rw [at_] at safe
      cases g with
      | deaf => cases at_g.symm.trans waiter
      | listening => exact safe.1.elim
      | heard => exact safe.1.elim
  exact ⟨w, kept.trans waiter, answered.moves (.poll here advances)⟩

/-- A call that was handed a stop fails or reports it. -/
theorem Handed.done {reply : Reply} (handed : Handed c f info) (hears : Hears c f)
    (done : f.program = .done reply) : fails reply ∨ reports info reply := by
  obtain ⟨w, waiter, answered⟩ := handed
  obtain ⟨g, safe, at_g⟩ := hears
  rw [done] at safe
  cases g with
  | deaf => cases at_g.symm.trans waiter
  | listening => exact .inl safe
  | heard r =>
    obtain ⟨w', v, waiter', answered', settled⟩ := at_g
    obtain rfl := Option.some.inj (waiter.symm.trans waiter')
    obtain rfl := answered.outcome.symm.trans answered'.outcome
    exact .inr (safe info (Option.some.inj settled).symm)

/-- A stop that is read while a waiter is in the slot is handed to it. -/
theorem handed_of_stop {body : StoppedBody} (sound : Sound c) (waiter : f.waiter = some w)
    (slot : c.link.shared.stopWaiter.slot = some w) :
    Handed (c.setLink (c.link.dispatch (.event (.stopped body)))) f (stopInfoFromEvent body) := by
  refine ⟨w, waiter, ?_, ?_, Slot.send_chan_self _ slot⟩
  · change (c.link.shared.stopWaiter.send _).slot ≠ some w
    rw [Slot.send_slot]
    exact fun h => by cases h
  · change w < (c.link.shared.stopWaiter.send _).next
    rw [Slot.send_next]
    exact sound.link.shared.stopWaiter.slot_lt w slot

/-- A continue or step whose request has not been written, or that has failed. -/
inductive Unsent (f : Fut) : Prop where
  | registering {request : Request} (resumes : request.command ∈ Link.resumeCommands)
      (at_ : f.program = resumeProgram request)
  | sending {request : Request} (resumes : request.command ∈ Link.resumeCommands)
      (at_ : f.program = sendResume request) (unwritten : ∀ q, f.await ≠ .awaiting q)
  | failed {e : BackendError} (at_ : f.program = .done (.resume (.error e)))

private theorem unsent_poll (unsent : Unsent f) (h : Advances c f choice c' f') :
    Unsent f' ∨ c'.link.lastExecution = some .resumed := by
  cases unsent with
  | @registering request resumes at_ =>
    rcases h.program_cases with same | ⟨i, next, r, at_', eq, -⟩
    · exact .inl (.registering resumes (same.trans at_))
    · cases at_.symm.trans at_'
      have ready : ∀ q, f'.await ≠ .awaiting q := by
        cases h with
        | registeredStop => exact fun q h => by cases h
        | registered _ other | registeredAsync _ other | latched _ other | parked _ other
        | gotReply _ other | gotStop _ other | stderr _ other | tookChild _ other | killed _ other
        | reaped _ other | accepted _ other | acceptedAsync _ other | refused _ other
        | refusedAsync _ other | replied _ other | woken _ other => cases at_.symm.trans other
      exact .inl (.sending resumes eq ready)
  | @sending request resumes at_ unwritten =>
    cases h with
    | registered => exact .inl (.sending resumes at_ fun q h => by cases h)
    | accepted _ at_' =>
      cases at_.symm.trans at_'
      exact .inr (if_pos resumes)
    | refused _ at_' =>
      cases at_.symm.trans at_'
      exact .inl (.failed rfl)
    | replied awaiting => exact absurd awaiting (unwritten _)
    | registeredAsync _ other | latched _ other | parked _ other | registeredStop _ other
    | gotReply _ other | gotStop _ other | stderr _ other | tookChild _ other | killed _ other
    | reaped _ other | acceptedAsync _ other | refusedAsync _ other | woken _ other =>
      cases at_.symm.trans other
  | failed at_ =>
    obtain ⟨i, next, at_'⟩ := h.at_op
    cases at_.symm.trans at_'

/-- What was true of a call still is, unless its request has been written. -/
structure Later (c : Connection) (f : Fut) (c' : Connection) (f' : Fut) : Prop where
  handed : ∀ info, Handed c f info → Handed c' f' info
  unsent : Unsent f → Unsent f' ∨ c'.link.lastExecution = some .resumed

/-- What is kept of a call while it is neither dropped nor finished. -/
theorem later_moves (served : Served c) (here : c.calls t = some f) (moves : Moves c a c')
    (kept : a ≠ .cancel t) (unfinished : a ≠ .finish t) :
    ∃ f', c'.calls t = some f' ∧ Later c f c' f' := by
  rcases call_moves moves here kept unfinished with same | ⟨choice, k, f', advances, rfl⟩
  · exact ⟨f, same, fun _ handed => handed.moves moves, .inl⟩
  · exact ⟨f', Function.update_self _ _ _,
      fun _ handed => handed.poll (Served.hears served here) here advances,
      fun unsent => (unsent_poll unsent advances :
        Unsent f' ∨ k.link.lastExecution = some .resumed)⟩

/-- The debuggee was stopped before, or a stop is read. -/
theorem stopped_of_moves (moves : Moves c a c')
    (stopped : c'.link.lastExecution = some (.stopped info)) :
    c.link.lastExecution = some (.stopped info) ∨
    ∃ body, a = .act (.receive (.event (.stopped body))) ∧ info = stopInfoFromEvent body := by
  cases moves with
  | @cancel t f =>
    left
    have same : (c.dropFut f).link.lastExecution = c.link.lastExecution := by
      unfold Connection.dropFut
      split <;> rfl
    exact same.symm.trans stopped
  | poll here advances =>
    left
    cases advances with
    | accepted | acceptedAsync =>
      simp only [Connection.setCall, Link.accept] at stopped
      split at stopped
      · cases stopped
      · exact stopped
    | _ => exact stopped
  | @receive message =>
    cases message with
    | event event =>
      cases event with
      | stopped body =>
        cases stopped
        exact .inr ⟨body, rfl, rfl⟩
      | exited | terminated => cases stopped
      | _ => exact .inl stopped
    | response | other => exact .inl stopped
  | readError => cases stopped
  | proceed proceeds =>
    left
    unfold Link.proceed at proceeds
    split at proceeds <;> cases proceeds
    · exact stopped
    · exact stopped
    · simpa [Connection.setLink] using stopped
  | _ => exact .inl stopped

end LldbDebugMcp.Backend.StopWaiter
