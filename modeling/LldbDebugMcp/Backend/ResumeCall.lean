/- module: LldbDebugMcp/Backend/ResumeCall
   source: crates/lldb-backend/src/backend.rs, crates/dap-client/src/read_loop.rs
   digest: The course of a continue or step that is alone on its connection. -/

import LldbDebugMcp.Backend.Steps

set_option autoImplicit false
set_option relaxedAutoImplicit false

namespace LldbDebugMcp.Backend.ResumeCall

open LldbDebugMcp.Core.Types
open LldbDebugMcp.Client.Message
open LldbDebugMcp.Client.State
open LldbDebugMcp.Client.ReadLoop
open LldbDebugMcp.Library.Channel
open LldbDebugMcp.Library.Effect
open LldbDebugMcp.Library.Transition
open LldbDebugMcp.Backend.Operations
open LldbDebugMcp.Backend.Adapter
open LldbDebugMcp.Backend.Steps

variable {c c' : Connection} {l l' : Link} {f f' : Fut} {a : Action} {choice : Choice} {t : Nat}

/-- The read loop has processed a terminated event, or the connection is lost. -/
def Ended (l : Link) : Prop :=
  l.terminated ≠ .unsent ∨ l.loop = .drained ∨ l.loop = .cancelled ∨ l.loop = .stopped

/-- A stop waiter hears of the end of the session only when it has ended. -/
structure Honest (l : Link) : Prop where
  terminating : l.loop = .terminating → l.terminated ≠ .unsent
  heard : ∀ w, l.shared.stopWaiter.chan w = .sent .terminated → Ended l

/-- A step of the client that keeps what has ended and tells no waiter of an end. -/
private theorem Honest.mono (honest : Honest l) (loop : l'.loop = l.loop)
    (signal : l.terminated ≠ .unsent → l'.terminated ≠ .unsent)
    (heard : ∀ w, l'.shared.stopWaiter.chan w = .sent .terminated →
      l.shared.stopWaiter.chan w = .sent .terminated) : Honest l' ∧ (Ended l → Ended l') := by
  have ended : Ended l → Ended l' := by
    rintro (sent | lost)
    · exact .inl (signal sent)
    · exact .inr (loop ▸ lost)
  exact ⟨⟨fun h => signal (honest.terminating (loop ▸ h)),
    fun w h => ended (honest.heard w (heard w h))⟩, ended⟩

private theorem fireTerminated_sent (l : Link) : l.fireTerminated.terminated ≠ .unsent := by
  unfold Link.fireTerminated
  split
  · exact fun h => by cases h
  · assumption

/-- An outcome other than the end of the session is sent. -/
private theorem heard_send {s : Slot StopOutcome} {o : StopOutcome} (other : o ≠ .terminated)
    {w : Nat} (h : (s.send o).chan w = .sent .terminated) : s.chan w = .sent .terminated := by
  by_cases mine : s.slot = some w
  · rw [Slot.send_chan_self o mine] at h
    cases h
    exact absurd rfl other
  · rwa [Slot.send_chan_other o mine] at h

private theorem honest_dispatch (honest : Honest l) (message : DapMessage) :
    Honest (l.dispatch message) ∧ (Ended l → Ended (l.dispatch message)) := by
  cases message with
  | response response =>
    refine honest.mono rfl id fun w h => ?_
    change (l.shared.dispatchResponse response.requestSeq _).1.stopWaiter.chan w = _ at h
    unfold Shared.dispatchResponse at h
    split at h <;> exact h
  | other envelope => exact ⟨honest, id⟩
  | event event =>
    cases event with
    | stopped body => exact honest.mono rfl id fun w h => heard_send (by simp) h
    | exited body => exact honest.mono rfl id fun w h => heard_send (by simp) h
    | terminated =>
      have ended : Ended (l.dispatch (.event .terminated)) := .inl (fireTerminated_sent l)
      exact ⟨⟨fun _ => fireTerminated_sent l, fun _ _ => ended⟩, fun _ => ended⟩
    | initialized | output | thread | breakpoint | process | continued | module | capabilities =>
      exact honest.mono rfl id fun _ h => h

private theorem honest_proceed (honest : Honest l) (h : l.proceed = some l') :
    Honest l' ∧ (Ended l → Ended l') := by
  unfold Link.proceed at h
  split at h <;> cases h
  · rename_i loop
    have ended : Ended { l with shared := l.shared.cancel, loop := .reading } :=
      .inl (honest.terminating loop)
    exact ⟨⟨nofun, fun _ _ => ended⟩, fun _ => ended⟩
  · have ended : Ended { l with shared := l.shared.cancel, loop := .cancelled } :=
      .inr (.inr (.inl rfl))
    exact ⟨⟨nofun, fun _ _ => ended⟩, fun _ => ended⟩
  · have ended : Ended { l.fireTerminated with loop := .stopped } := .inr (.inr (.inr rfl))
    exact ⟨⟨nofun, fun _ _ => ended⟩, fun _ => ended⟩

/-- A poll tells no waiter of an end. -/
private theorem honest_advances (honest : Honest c.link) (h : Advances c f choice c' f') :
    Honest c'.link ∧ (Ended c.link → Ended c'.link) := by
  cases h with
  | registeredStop =>
    refine honest.mono rfl id fun w h => ?_
    change c.link.shared.stopWaiter.register.2.chan w = _ at h
    by_cases new : w = c.link.shared.stopWaiter.next
    · subst new
      rw [Slot.register_chan_self] at h
      cases h
    · by_cases old : c.link.shared.stopWaiter.slot = some w
      · simp [Slot.register, Function.update_of_ne new, Slot.dropSender, old] at h
      · rwa [Slot.register_chan_other new old] at h
  | parked _ _ unfired =>
    refine honest.mono rfl id fun w h => ?_
    simpa [Connection.setShared, Shared.waitInitialized, unfired] using h
  | refused | refusedAsync =>
    refine honest.mono rfl id fun w h => ?_
    simpa [Connection.setShared] using h
  | registered | registeredAsync | accepted | acceptedAsync =>
    exact honest.mono rfl id fun _ h => h
  | latched | gotReply | gotStop | stderr | tookChild | killed | reaped | replied | woken =>
    exact ⟨honest, id⟩

private theorem honest_moves (honest : Honest c.link) (moves : Moves c a c') :
    Honest c'.link ∧ (Ended c.link → Ended c'.link) := by
  cases moves with
  | @cancel t f =>
    refine honest.mono ?_ ?_ ?_ <;> unfold Connection.dropFut <;> split <;>
      simp [Connection.setCall, Connection.setShared]
  | poll here advances =>
    obtain ⟨kept, ended⟩ := honest_advances honest advances
    exact ⟨kept, ended⟩
  | receive => exact honest_dispatch honest _
  | readError =>
    have ended : Ended { c.link with
        shared := c.link.shared.cancelAllPending .closed
        loop := .drained
        lastExecution := some .terminated } := .inr (.inl rfl)
    exact ⟨⟨(fun h => by cases h), fun _ _ => ended⟩, fun _ => ended⟩
  | proceed proceeds => exact honest_proceed honest proceeds
  | pullTerminated => exact honest.mono rfl (fun _ h => by cases h) fun _ h => h
  | start | finish | pullOutput | childExit | stderr => exact honest.mono rfl id fun _ h => h

theorem ended_moves (honest : Honest c.link) (ended : Ended c.link) (moves : Moves c a c') :
    Ended c'.link := (honest_moves honest moves).2 ended

theorem Served.honest (served : Served c) : Honest c.link :=
  served.keeps (I := fun c => Honest c.link) (fun _ => ⟨nofun, nofun⟩)
    fun _ _ _ _ honest _ moves => (honest_moves honest moves).1

/-! The body of a continue or step, operation by operation. -/

def resumed : Option StopOutcome → Dap Reply
  | some outcome => .done (.resume (.ok outcome))
  | none => .done (.resume (.ok .terminated))

def awaitStop : Dap Reply := .op .recvStop resumed

def sent : PendingResult → Dap Reply
  | .error e => .done (.resume (.error (.send e.display)))
  | .ok _ => awaitStop

def sendResume (request : Request) : Dap Reply := .op (.send request) sent

def resumeProgram (request : Request) : Dap Reply := .op .register fun _ => sendResume request

private theorem program_resume (request : Request) :
    (resumeAndWait request).run.bind (fun r => .done (.resume r)) = resumeProgram request := by
  refine congrArg (Program.op Op.register) (funext fun _ => ?_)
  refine congrArg (Program.op (Op.send request)) (funext fun r => ?_)
  cases r with
  | error e => rfl
  | ok message =>
    refine congrArg (Program.op Op.recvStop) (funext fun r => ?_)
    cases r <;> rfl

theorem program_cont (threadId : Int) :
    (Call.cont threadId).program = resumeProgram (Requests.cont threadId) := program_resume _

theorem program_step (kind : StepKind) (threadId : Int) (gran : Option Granularity) :
    ∃ request, (Call.step kind threadId gran).program = resumeProgram request ∧
      request.command ∈ Link.resumeCommands := by
  have known : stepCommand kind ∈ Link.resumeCommands := by cases kind <;> decide
  exact ⟨_, program_resume _, known⟩

/-- Where the future of a continue or step stands: its stop waiter, once it is registered, was
not replaced, and it is told of an end only when the session has ended. -/
inductive Resuming (l : Link) (f : Fut) : Prop where
  | registering {request : Request} (at_ : f.program = resumeProgram request)
      (fresh : f.waiter = none)
  | sending {request : Request} {w : Nat} (at_ : f.program = sendResume request)
      (waiter : f.waiter = some w) (open_ : l.shared.stopWaiter.chan w ≠ .closed)
  | awaiting {w : Nat} (at_ : f.program = awaitStop) (waiter : f.waiter = some w)
      (open_ : l.shared.stopWaiter.chan w ≠ .closed)
  | returned {r : Except BackendError StopOutcome} {w : Nat}
      (at_ : f.program = .done (.resume r))
      (waiter : f.waiter = some w) (open_ : l.shared.stopWaiter.chan w ≠ .closed)
      (ended : r = .ok .terminated → Ended l)

/-- A step that closes no waiter and keeps what has ended. -/
theorem Resuming.mono (resuming : Resuming l f)
    (open_ : ∀ w, l.shared.stopWaiter.chan w ≠ .closed → l'.shared.stopWaiter.chan w ≠ .closed)
    (ended : Ended l → Ended l') : Resuming l' f := by
  cases resuming with
  | registering at_ fresh => exact .registering at_ fresh
  | sending at_ waiter not_closed => exact .sending at_ waiter (open_ _ not_closed)
  | awaiting at_ waiter not_closed => exact .awaiting at_ waiter (open_ _ not_closed)
  | returned at_ waiter not_closed heard =>
    exact .returned at_ waiter (open_ _ not_closed) fun h => ended (heard h)

theorem poll_eq_some {α : Type} {o : OneShot α} {r : Option α} (h : o.poll = some r) :
    match r with
    | some v => o = .sent v
    | none => o = .closed := by
  cases o with
  | empty => cases h
  | sent v =>
    cases h
    rfl
  | closed =>
    cases h
    rfl

private theorem resuming_sending {request : Request} {w : Nat}
    (at_ : f.program = sendResume request) (waiter : f.waiter = some w)
    (not_closed : c.link.shared.stopWaiter.chan w ≠ .closed) (h : Advances c f choice c' f') :
    Resuming c'.link f' := by
  unfold sendResume at at_
  cases h with
  | registered => exact .sending at_ waiter not_closed
  | accepted => exact .sending at_ waiter not_closed
  | refused _ at_' =>
    cases at_.symm.trans at_'
    refine .returned rfl waiter ?_ fun h => by cases h
    simpa [Connection.setShared] using not_closed
  | @replied _ _ _ r _ at_' =>
    cases at_.symm.trans at_'
    cases reply : r.getD (.error .closed) with
    | error e =>
      exact .returned (r := .error (.send e.display)) rfl waiter not_closed fun h => by cases h
    | ok message => exact .awaiting rfl waiter not_closed
  | registeredAsync _ other | latched _ other | parked _ other | registeredStop _ other
  | gotReply _ other | gotStop _ other | stderr _ other | tookChild _ other | killed _ other
  | reaped _ other | acceptedAsync _ other | refusedAsync _ other | woken _ other =>
    cases at_.symm.trans other

private theorem resuming_awaiting {w : Nat} (honest : Honest c.link) (at_ : f.program = awaitStop)
    (waiter : f.waiter = some w) (not_closed : c.link.shared.stopWaiter.chan w ≠ .closed)
    (h : Advances c f choice c' f') : Resuming c'.link f' := by
  unfold awaitStop at at_
  cases h with
  | @gotStop _ w' r _ at_' waiter' settled =>
    cases at_.symm.trans at_'
    obtain rfl := Option.some.inj (waiter.symm.trans waiter')
    have heard := poll_eq_some settled
    cases r with
    | none => exact absurd heard not_closed
    | some outcome =>
      refine .returned rfl waiter not_closed fun h => honest.heard w ?_
      cases h
      exact heard
  | registered _ other | registeredAsync _ other | latched _ other | parked _ other
  | registeredStop _ other | gotReply _ other | stderr _ other | tookChild _ other
  | killed _ other | reaped _ other | accepted _ other | acceptedAsync _ other
  | refused _ other | refusedAsync _ other | replied _ other | woken _ other =>
    cases at_.symm.trans other

/-- The poll of a continue or step. -/
theorem resuming_advances (honest : Honest c.link) (resuming : Resuming c.link f)
    (h : Advances c f choice c' f') : Resuming c'.link f' := by
  cases resuming with
  | registering at_ fresh =>
    unfold resumeProgram at at_
    cases h with
    | registeredStop _ at_' =>
      cases at_.symm.trans at_'
      refine .sending rfl rfl ?_
      change c.link.shared.stopWaiter.register.2.chan _ ≠ _
      rw [Slot.register_chan_self]
      exact fun h => by cases h
    | registered _ other | registeredAsync _ other | latched _ other | parked _ other
    | gotReply _ other | gotStop _ other | stderr _ other | tookChild _ other
    | killed _ other | reaped _ other | accepted _ other | acceptedAsync _ other
    | refused _ other | refusedAsync _ other | replied _ other | woken _ other =>
      cases at_.symm.trans other
  | sending at_ waiter not_closed => exact resuming_sending at_ waiter not_closed h
  | awaiting at_ waiter not_closed => exact resuming_awaiting honest at_ waiter not_closed h
  | returned at_ =>
    cases h with
    | registered _ other | registeredAsync _ other | latched _ other | parked _ other
    | registeredStop _ other | gotReply _ other | gotStop _ other | stderr _ other
    | tookChild _ other | killed _ other | reaped _ other | accepted _ other
    | acceptedAsync _ other | refused _ other | refusedAsync _ other | replied _ other
    | woken _ other => cases at_.symm.trans other

/-- The calls in flight are continues and steps, and there is one at most. -/
structure Solo (c : Connection) : Prop where
  one : ∀ t t' f f', c.calls t = some f → c.calls t' = some f' → t = t'
  resuming : ∀ t f, c.calls t = some f → Resuming c.link f

/-- A step of the read loop. -/
private theorem solo_loop {l : Link} (solo : Solo c) (step : LoopStep c.link l)
    (ended : Ended c.link → Ended l) : Solo (c.setLink l) :=
  ⟨solo.one, fun t f here => (solo.resuming t f here).mono step.opened ended⟩

/-- The one call goes. -/
private theorem solo_drop (solo : Solo c) (here : c.calls t = some f) (calls : c'.calls = c.calls) :
    Solo (c'.setCall t none) := by
  have gone : ∀ s g, (c'.setCall t none).calls s ≠ some g := by
    intro s g there
    change Function.update c'.calls t none s = some g at there
    by_cases same : s = t
    · rw [same, Function.update_self] at there
      cases there
    · rw [Function.update_of_ne same, calls] at there
      exact same (solo.one s t g f there here)
  exact ⟨fun s _ g _ there => absurd there (gone s g), fun s g there => absurd there (gone s g)⟩

/-- A step of a connection that begins no call. -/
theorem Solo.moves (solo : Solo c) (honest : Honest c.link) (moves : Moves c a c')
    (beginsNone : ∀ t program, a ≠ .start t program) : Solo c' := by
  have ended := fun h => ended_moves honest h moves
  cases moves with
  | start => exact absurd rfl (beginsNone _ _)
  | @cancel t f here => exact solo_drop solo here (pollStep_dropFut c f).calls
  | finish here => exact solo_drop solo here rfl
  | @poll t choice f f' k here advances =>
    have calls := (pollStep_of_advances advances).calls
    have mine : ∀ s g, (k.setCall t (some f')).calls s = some g → s = t ∧ g = f' := by
      intro s g there
      change Function.update k.calls t (some f') s = some g at there
      by_cases same : s = t
      · rw [same, Function.update_self] at there
        exact ⟨same, (Option.some.inj there).symm⟩
      · rw [Function.update_of_ne same, calls] at there
        exact absurd (solo.one s t g f there here) same
    refine ⟨fun s s' g g' there there' => ?_, fun s g there => ?_⟩
    · rw [(mine s g there).1, (mine s' g' there').1]
    · have after := resuming_advances honest (solo.resuming t f here) advances
      rw [(mine s g there).2]
      exact after
  | pullOutput => exact solo_loop solo (loopStep_same rfl rfl) ended
  | pullTerminated => exact solo_loop solo (loopStep_same rfl rfl) ended
  | receive => exact solo_loop solo (loopStep_dispatch _ _) ended
  | readError => exact solo_loop solo loopStep_readError ended
  | proceed proceeds => exact solo_loop solo (loopStep_proceed proceeds) ended
  | childExit | stderr => exact ⟨solo.one, solo.resuming⟩

/-- A continue or step begins on a connection with no call in flight. -/
theorem solo_start {request : Request} (idle : ∀ t, c.calls t = none) :
    Solo (c.setCall t (some (Fut.new (resumeProgram request)))) := by
  have mine : ∀ s g, (c.setCall t (some (Fut.new (resumeProgram request)))).calls s = some g →
      s = t ∧ g = Fut.new (resumeProgram request) := by
    intro s g there
    change Function.update c.calls t _ s = some g at there
    by_cases same : s = t
    · rw [same, Function.update_self] at there
      exact ⟨same, (Option.some.inj there).symm⟩
    · rw [Function.update_of_ne same, idle] at there
      cases there
  refine ⟨fun s s' g g' there there' => ?_, fun s g there => ?_⟩
  · rw [(mine s g there).1, (mine s' g' there').1]
  · rw [(mine s g there).2]
    exact .registering rfl rfl

end LldbDebugMcp.Backend.ResumeCall
