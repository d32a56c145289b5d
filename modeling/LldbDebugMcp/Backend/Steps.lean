/- module: LldbDebugMcp/Backend/Steps
   source: crates/dap-client/src/client.rs, crates/lldb-backend/src/backend.rs
   digest: What one step of a connection can do, and what every connection keeps. -/

import LldbDebugMcp.Library.Transition
import LldbDebugMcp.Backend.Adapter

set_option autoImplicit false
set_option relaxedAutoImplicit false

namespace LldbDebugMcp.Backend.Steps

open LldbDebugMcp.Core.Types
open LldbDebugMcp.Client.Message
open LldbDebugMcp.Client.State
open LldbDebugMcp.Client.ReadLoop
open LldbDebugMcp.Library.Channel
open LldbDebugMcp.Library.Effect
open LldbDebugMcp.Library.Transition
open LldbDebugMcp.Backend.Operations
open LldbDebugMcp.Backend.Adapter

variable {c c' : Connection} {f f' : Fut} {choice : Choice} {t : Nat}

/-- The future is at the beginning of its operation. -/
def Ready (f : Fut) : Prop := f.await = .created ∨ f.await = .running

/-- Every way a poll can go, with the connection and the future that it leads to. -/
inductive Advances (c : Connection) (f : Fut) : Choice → Connection → Fut → Prop where
  | registered {request : Request} {next : PendingResult → Dap Reply} (ready : Ready f)
      (at_ : f.program = .op (.send request) next) :
      Advances c f .go (c.setShared c.link.shared.registerPending.2)
        { f with await := .writing (c.link.shared.seq + 1) }
  | registeredAsync {request : Request} {next : Except BackendError Unit → Dap Reply}
      (ready : Ready f) (at_ : f.program = .op (.sendAsync request) next) :
      Advances c f .go (c.setShared c.link.shared.registerPending.2)
        { f with await := .writing (c.link.shared.seq + 1) }
  | latched {next : Unit → Dap Reply} (ready : Ready f)
      (at_ : f.program = .op .waitInitialized next) (fired : c.link.shared.fired = true) :
      Advances c f .go c (f.goOn (next ()))
  | parked {next : Unit → Dap Reply} (ready : Ready f)
      (at_ : f.program = .op .waitInitialized next) (unfired : c.link.shared.fired = false) :
      Advances c f .go (c.setShared c.link.shared.waitInitialized.2)
        { f with await := .parked c.link.shared.initialized.next }
  | registeredStop {next : Unit → Dap Reply} (ready : Ready f)
      (at_ : f.program = .op .register next) :
      Advances c f .go (c.setShared c.link.shared.register.2)
        { f.goOn (next ()) with waiter := some c.link.shared.stopWaiter.next }
  | gotReply {next : Option PendingResult → Dap Reply} {seq : Int} {r : Option PendingResult}
      (ready : Ready f) (at_ : f.program = .op .recvReply next) (rx : f.rx = some seq)
      (settled : (c.link.shared.replies seq).poll = some r) :
      Advances c f .go c (f.goOn (next r))
  | gotStop {next : Option StopOutcome → Dap Reply} {w : Nat} {r : Option StopOutcome}
      (ready : Ready f) (at_ : f.program = .op .recvStop next) (waiter : f.waiter = some w)
      (settled : (c.link.shared.stopWaiter.chan w).poll = some r) :
      Advances c f .go c (f.goOn (next r))
  | stderr {next : String → Dap Reply} (ready : Ready f) (at_ : f.program = .op .stderr next) :
      Advances c f .go c (f.goOn (next c.stderr))
  | tookChild {next : Bool → Dap Reply} (ready : Ready f)
      (at_ : f.program = .op .takeChild next) :
      Advances c f .go { c with child := false } (f.goOn (next c.child))
  | killed {next : Unit → Dap Reply} (ready : Ready f) (at_ : f.program = .op .startKill next) :
      Advances c f .go { c with killed := true } (f.goOn (next ()))
  | reaped {next : Unit → Dap Reply} (ready : Ready f) (at_ : f.program = .op .waitChild next)
      (exited : c.exited = true) : Advances c f .go c (f.goOn (next ()))
  | accepted {request : Request} {next : PendingResult → Dap Reply} {seq : Int}
      (writing : f.await = .writing seq) (at_ : f.program = .op (.send request) next) :
      Advances c f .accept { c with link := c.link.accept (request.setSeq seq) }
        { f with await := .awaiting seq }
  | acceptedAsync {request : Request} {next : Except BackendError Unit → Dap Reply} {seq : Int}
      (writing : f.await = .writing seq) (at_ : f.program = .op (.sendAsync request) next) :
      Advances c f .accept { c with link := c.link.accept (request.setSeq seq) }
        { f.goOn (next (.ok ())) with rx := some seq }
  | refused {request : Request} {next : PendingResult → Dap Reply} {seq : Int} {message : String}
      (writing : f.await = .writing seq) (at_ : f.program = .op (.send request) next) :
      Advances c f (.refuse message) (c.setShared (c.link.shared.removePending seq))
        (f.goOn (next (.error (.send message))))
  | refusedAsync {request : Request} {next : Except BackendError Unit → Dap Reply} {seq : Int}
      {message : String} (writing : f.await = .writing seq)
      (at_ : f.program = .op (.sendAsync request) next) :
      Advances c f (.refuse message) (c.setShared (c.link.shared.removePending seq))
        (f.goOn (next (.error (.send message))))
  | replied {request : Request} {next : PendingResult → Dap Reply} {seq : Int}
      {r : Option PendingResult} (awaiting : f.await = .awaiting seq)
      (at_ : f.program = .op (.send request) next)
      (settled : (c.link.shared.replies seq).poll = some r) :
      Advances c f .go c (f.goOn (next (r.getD (.error .closed))))
  | woken {next : Unit → Dap Reply} {w : Nat} (parked : f.await = .parked w)
      (at_ : f.program = .op .waitInitialized next)
      (settled : c.link.shared.initialized.chan w ≠ .empty) :
      Advances c f .go c (f.goOn (next ()))

theorem poll_eq_none {α : Type} {o : OneShot α} : o.poll = none ↔ o = .empty := by
  cases o <;> simp [OneShot.poll]

private theorem advances_of_enter (ready : Ready f) (h : c.enter f = some (c', f')) :
    Advances c f .go c' f' := by
  unfold Connection.enter at h
  split at h
  · cases h
  · cases h
    exact .registered ready ‹_›
  · cases h
    exact .registeredAsync ready ‹_›
  · rename_i next at_
    unfold Shared.waitInitialized at h
    cases fired : c.link.shared.fired with
    | true =>
      simp only [fired, if_true] at h
      cases h
      exact .latched ready at_ fired
    | false =>
      simp only [fired, Bool.false_eq_true, if_false] at h
      cases h
      have p := Advances.parked (c := c) ready at_ fired
      simp only [Shared.waitInitialized, fired, Bool.false_eq_true, if_false] at p
      exact p
  · cases h
    exact .registeredStop ready ‹_›
  · obtain ⟨r, hr, eq⟩ := Option.map_eq_some_iff.mp h
    obtain ⟨seq, rx, settled⟩ := Option.bind_eq_some_iff.mp hr
    cases eq
    exact .gotReply ready ‹_› rx settled
  · obtain ⟨r, hr, eq⟩ := Option.map_eq_some_iff.mp h
    obtain ⟨w, waiter, settled⟩ := Option.bind_eq_some_iff.mp hr
    cases eq
    exact .gotStop ready ‹_› waiter settled
  · cases h
    exact .stderr ready ‹_›
  · cases h
    exact .tookChild ready ‹_›
  · cases h
    exact .killed ready ‹_›
  · split at h
    · cases h
      exact .reaped ready ‹_› ‹_›
    · cases h

/-- The inversion of `advance`. -/
theorem advances_of_advance (h : c.advance f choice = some (c', f')) :
    Advances c f choice c' f' := by
  unfold Connection.advance at h
  split at h
  · exact advances_of_enter (.inl ‹_›) h
  · exact advances_of_enter (.inr ‹_›) h
  · unfold Connection.accepted at h
    split at h <;> cases h
    · exact .accepted ‹_› ‹_›
    · exact .acceptedAsync ‹_› ‹_›
  · unfold Connection.refused at h
    split at h <;> cases h
    · exact .refused ‹_› ‹_›
    · exact .refusedAsync ‹_› ‹_›
  · unfold Connection.replied at h
    split at h
    · obtain ⟨r, settled, eq⟩ := Option.map_eq_some_iff.mp h
      cases eq
      exact .replied ‹_› ‹_› settled
    · cases h
  · unfold Connection.woken at h
    split at h
    · obtain ⟨r, settled, eq⟩ := Option.map_eq_some_iff.mp h
      cases eq
      refine .woken ‹_› ‹_› fun empty => ?_
      rw [poll_eq_none.mpr empty] at settled
      cases settled
    · cases h
  · cases h

/-- A future that is done is not polled. -/
theorem Advances.at_op (h : Advances c f choice c' f') : ∃ i next, f.program = .op i next := by
  cases h <;> exact ⟨_, _, ‹_›⟩

/-- A poll does not touch what belongs to the read loop. -/
theorem Advances.loop_eq (h : Advances c f choice c' f') :
    c'.link.loop = c.link.loop ∧ c'.link.lastExitCode = c.link.lastExitCode ∧
      c'.link.output = c.link.output ∧ c'.link.terminated = c.link.terminated := by
  cases h <;> exact ⟨rfl, rfl, rfl, rfl⟩

/-- Every way a connection can go, with the connection that it leads to. -/
inductive Moves (c : Connection) : Action → Connection → Prop where
  | start {t : Nat} {program : Dap Reply} (fresh : c.calls t = none) :
      Moves c (.start t program) (c.setCall t (some (Fut.new program)))
  | cancel {t : Nat} {f : Fut} (here : c.calls t = some f) (suspended : f.suspended = true) :
      Moves c (.cancel t) ((c.dropFut f).setCall t none)
  | finish {t : Nat} {f : Fut} {reply : Reply} (here : c.calls t = some f)
      (done : f.program = .done reply) : Moves c (.finish t) (c.setCall t none)
  | pullOutput {body : OutputBody} {rest : List OutputBody}
      (queued : c.link.output = body :: rest) :
      Moves c (.pull .output) (c.setLink { c.link with output := rest })
  | pullTerminated {code : Option Int} (sent : c.link.terminated = .sent code) :
      Moves c (.pull .terminated) (c.setLink { c.link with terminated := .taken })
  | poll {t : Nat} {choice : Choice} {f f' : Fut} {c' : Connection} (here : c.calls t = some f)
      (advances : Advances c f choice c' f') :
      Moves c (.act (.poll t choice)) (c'.setCall t (some f'))
  | receive {message : DapMessage} (reading : c.link.loop = .reading) :
      Moves c (.act (.receive message)) (c.setLink (c.link.dispatch message))
  | readError (reading : c.link.loop = .reading) :
      Moves c (.act .readError)
        (c.setLink { c.link with
          shared := c.link.shared.cancelAllPending .closed
          loop := .drained
          lastExecution := some .terminated })
  | proceed {link : Link} (proceeds : c.link.proceed = some link) :
      Moves c (.act .proceed) (c.setLink link)
  | childExit : Moves c (.act .childExit) { c with exited := true }
  | stderr (text : String) : Moves c (.act (.stderr text)) { c with stderr := text }

/-- The inversion of `poll`. -/
theorem poll_eq (h : c.poll t choice = some c') :
    ∃ f f' k, c.calls t = some f ∧ Advances c f choice k f' ∧ c' = k.setCall t (some f') := by
  obtain ⟨f, here, rest⟩ := Option.bind_eq_some_iff.mp h
  obtain ⟨⟨k, f'⟩, advance, rfl⟩ := Option.map_eq_some_iff.mp rest
  exact ⟨f, f', k, here, advances_of_advance advance, rfl⟩

theorem finish_eq {reply : Reply} (h : c.finish t = some (reply, c')) :
    ∃ f, c.calls t = some f ∧ f.program = .done reply ∧ c' = c.setCall t none := by
  unfold Connection.finish at h
  split at h
  · rename_i here
    cases h
    exact ⟨_, here, rfl, rfl⟩
  · cases h

theorem cancel_eq (h : c.cancel t = some c') :
    ∃ f, c.calls t = some f ∧ f.suspended = true ∧ c' = (c.dropFut f).setCall t none := by
  obtain ⟨f, here, rest⟩ := Option.bind_eq_some_iff.mp h
  split at rest
  · rename_i suspended
    cases rest
    exact ⟨f, here, suspended, rfl⟩
  · cases rest

theorem start_eq {program : Dap Reply} (h : c.start t program = some c') :
    c.calls t = none ∧ c' = c.setCall t (some (Fut.new program)) := by
  unfold Connection.start at h
  split at h
  · rename_i fresh
    cases h
    exact ⟨fresh, rfl⟩
  · cases h

/-- The inversion of `step`. -/
theorem moves_of_step {a : Action} (taken : c.step a = some c') : Moves c a c' := by
  cases a with
  | start t program =>
    obtain ⟨fresh, rfl⟩ := start_eq taken
    exact .start fresh
  | cancel t =>
    obtain ⟨f, here, suspended, rfl⟩ := cancel_eq taken
    exact .cancel here suspended
  | finish t =>
    obtain ⟨⟨reply, k⟩, finished, rfl⟩ := Option.map_eq_some_iff.mp taken
    obtain ⟨f, here, done, rfl⟩ := finish_eq finished
    exact .finish here done
  | pull which =>
    obtain ⟨⟨event, k⟩, taken', rfl⟩ := Option.map_eq_some_iff.mp taken
    obtain ⟨⟨event', link⟩, pulled, eq⟩ := Option.map_eq_some_iff.mp taken'
    cases eq
    cases which with
    | output =>
      change c.link.pullOutput = _ at pulled
      unfold Link.pullOutput at pulled
      split at pulled
      · cases pulled
      · rename_i queued
        cases pulled
        exact .pullOutput queued
    | terminated =>
      change c.link.pullTerminated = _ at pulled
      unfold Link.pullTerminated at pulled
      split at pulled
      · rename_i sent
        cases pulled
        exact .pullTerminated sent
      · cases pulled
  | act a =>
    cases a with
    | poll t choice =>
      obtain ⟨f, f', k, here, advances, rfl⟩ := poll_eq taken
      exact .poll here advances
    | receive message =>
      obtain ⟨link, received, rfl⟩ := Option.map_eq_some_iff.mp taken
      unfold Link.receive at received
      split at received
      · rename_i reading
        cases received
        exact .receive reading
      · cases received
    | readError =>
      obtain ⟨link, failed, rfl⟩ := Option.map_eq_some_iff.mp taken
      unfold Link.readError at failed
      split at failed
      · rename_i reading
        cases failed
        exact .readError reading
      · cases failed
    | proceed =>
      obtain ⟨link, proceeds, rfl⟩ := Option.map_eq_some_iff.mp taken
      exact .proceed proceeds
    | childExit =>
      cases taken
      exact .childExit
    | stderr text =>
      cases taken
      exact .stderr text

/-- What a future relies on: its seq and its waiters were handed out, the frame of a request
whose reply it awaits was written, and it is parked only to wait for the latch. -/
structure FutSound (l : Link) (f : Fut) : Prop where
  writing : ∀ q, f.await = .writing q → 1 ≤ q ∧ q ≤ l.shared.seq
  awaiting : ∀ q, f.await = .awaiting q → ∃ r ∈ l.wire, r.seq = q
  parked : ∀ w, f.await = .parked w → w < l.shared.initialized.next
  parkedAt : ∀ w, f.await = .parked w → ∃ next, f.program = .op .waitInitialized next
  rx : ∀ q, f.rx = some q → ∃ r ∈ l.wire, r.seq = q
  waiter : ∀ w, f.waiter = some w → w < l.shared.stopWaiter.next

/-- Seqs, frames and registrations are only added to. -/
structure Grows (l l' : Link) : Prop where
  seq : l.shared.seq ≤ l'.shared.seq
  wire : ∀ r ∈ l.wire, r ∈ l'.wire
  stops : l.shared.stopWaiter.next ≤ l'.shared.stopWaiter.next
  latch : l.shared.initialized.next ≤ l'.shared.initialized.next

theorem Grows.refl (l : Link) : Grows l l :=
  ⟨Int.le_refl _, fun _ h => h, Nat.le_refl _, Nat.le_refl _⟩

theorem FutSound.grows {l l' : Link} (sound : FutSound l f) (grows : Grows l l') :
    FutSound l' f where
  writing q h := ⟨(sound.writing q h).1, Int.le_trans (sound.writing q h).2 grows.seq⟩
  awaiting q h := by
    obtain ⟨r, hr, eq⟩ := sound.awaiting q h
    exact ⟨r, grows.wire r hr, eq⟩
  parked w h := Nat.lt_of_lt_of_le (sound.parked w h) grows.latch
  parkedAt := sound.parkedAt
  rx q h := by
    obtain ⟨r, hr, eq⟩ := sound.rx q h
    exact ⟨r, grows.wire r hr, eq⟩
  waiter w h := Nat.lt_of_lt_of_le (sound.waiter w h) grows.stops

/-- The client side of a connection. -/
structure LinkSound (l : Link) : Prop where
  shared : l.shared.Sound
  wire : ∀ r ∈ l.wire, 1 ≤ r.seq ∧ r.seq ≤ l.shared.seq

/-- What every connection keeps. -/
structure Sound (c : Connection) : Prop where
  link : LinkSound c.link
  calls : ∀ t f, c.calls t = some f → FutSound c.link f

/-- A step of the read loop or of the event stream. -/
structure LoopStep (l l' : Link) : Prop where
  seq : l'.shared.seq = l.shared.seq
  wire : l'.wire = l.wire
  stops : l'.shared.stopWaiter.next = l.shared.stopWaiter.next
  latch : l'.shared.initialized.next = l.shared.initialized.next
  opened : ∀ w, l.shared.stopWaiter.chan w ≠ .closed → l'.shared.stopWaiter.chan w ≠ .closed
  sound : l.shared.Sound → l'.shared.Sound

theorem LoopStep.grows {l l' : Link} (step : LoopStep l l') : Grows l l' :=
  ⟨Int.le_of_eq step.seq.symm, fun _ h => step.wire ▸ h, Nat.le_of_eq step.stops.symm,
    Nat.le_of_eq step.latch.symm⟩

theorem LoopStep.linkSound {l l' : Link} (step : LoopStep l l') (sound : LinkSound l) :
    LinkSound l' where
  shared := step.sound sound.shared
  wire r h := by
    rw [step.seq]
    rw [step.wire] at h
    exact sound.wire r h

@[simp] theorem fireTerminated_shared (l : Link) : l.fireTerminated.shared = l.shared := by
  unfold Link.fireTerminated
  split <;> rfl

@[simp] theorem fireTerminated_wire (l : Link) : l.fireTerminated.wire = l.wire := by
  unfold Link.fireTerminated
  split <;> rfl

@[simp] theorem fireTerminated_lastExecution (l : Link) :
    l.fireTerminated.lastExecution = l.lastExecution := by
  unfold Link.fireTerminated
  split <;> rfl

private theorem loopStep_send {l : Link} {v : StopOutcome} {l' : Link}
    (shared : l'.shared = { l.shared with stopWaiter := l.shared.stopWaiter.send v })
    (wire : l'.wire = l.wire) : LoopStep l l' := by
  refine ⟨?_, wire, ?_, ?_, fun w h => ?_, fun sound => ?_⟩ <;> rw [shared]
  · exact Slot.send_next _ _
  · exact Slot.not_closed_send v h
  · exact { sound with stopWaiter := sound.stopWaiter.send v }

theorem loopStep_same {l l' : Link} (shared : l'.shared = l.shared)
    (wire : l'.wire = l.wire) : LoopStep l l' := by
  refine ⟨?_, wire, ?_, ?_, fun w h => ?_, ?_⟩ <;> rw [shared]
  · exact h
  · exact id

theorem loopStep_dispatch (l : Link) (message : DapMessage) : LoopStep l (l.dispatch message) := by
  cases message with
  | response response =>
    have stopWaiter : ∀ s : Shared, (s.dispatchResponse response.requestSeq
        (.response response)).1.stopWaiter = s.stopWaiter := by
      intro s
      unfold Shared.dispatchResponse
      split <;> rfl
    refine ⟨?_, rfl, ?_, ?_, fun w h => ?_, fun sound => sound.dispatchResponse _ _⟩
    · simp only [Link.dispatch, Shared.dispatchResponse]
      split <;> rfl
    · exact congrArg Slot.next (stopWaiter _)
    · simp only [Link.dispatch, Shared.dispatchResponse]
      split <;> rfl
    · simpa only [Link.dispatch, stopWaiter] using h
  | event event =>
    cases event with
    | stopped body => exact loopStep_send rfl rfl
    | exited body => exact loopStep_send rfl rfl
    | terminated => exact loopStep_same (fireTerminated_shared l) (fireTerminated_wire l)
    | initialized =>
      exact ⟨rfl, rfl, rfl, Slot.send_next _ _, fun _ h => h, fun sound => sound.signalInitialized⟩
    | _ => exact loopStep_same rfl rfl
  | other envelope => exact loopStep_same rfl rfl

theorem loopStep_proceed {l l' : Link} (h : l.proceed = some l') : LoopStep l l' := by
  unfold Link.proceed at h
  split at h <;> cases h
  · exact loopStep_send rfl rfl
  · exact loopStep_send rfl rfl
  · exact loopStep_same (fireTerminated_shared l) (fireTerminated_wire l)

theorem loopStep_readError {l : Link} : LoopStep l
    { l with
      shared := l.shared.cancelAllPending .closed
      loop := .drained
      lastExecution := some .terminated } :=
  ⟨rfl, rfl, rfl, rfl, fun _ h => h, fun sound => sound.cancelAllPending _⟩

/-- What one poll keeps. -/
structure PollStep (c : Connection) (f : Fut) (c' : Connection) (f' : Fut) : Prop where
  calls : c'.calls = c.calls
  grows : Grows c.link c'.link
  link : LinkSound c.link → FutSound c.link f → LinkSound c'.link
  fut : LinkSound c.link → FutSound c.link f → FutSound c'.link f'

private theorem futSound_goOn (program : Dap Reply) {l : Link} (sound : FutSound l f) :
    FutSound l (f.goOn program) :=
  { sound with
    writing := fun _ h => by cases h
    awaiting := fun _ h => by cases h
    parked := fun _ h => by cases h
    parkedAt := fun _ h => by cases h }

/-- The future goes on, and the connection keeps its client. -/
private theorem pollStep_goOn {program : Dap Reply} (link : c'.link = c.link)
    (calls : c'.calls = c.calls) : PollStep c f c' (f.goOn program) := by
  refine ⟨calls, ?_, fun sound _ => ?_, fun _ sound => ?_⟩ <;> rw [link]
  · exact Grows.refl _
  · exact sound
  · exact futSound_goOn _ sound

private theorem pollStep_registered : PollStep c f (c.setShared c.link.shared.registerPending.2)
    { f with await := .writing (c.link.shared.seq + 1) } := by
  have grows : Grows c.link (c.setShared c.link.shared.registerPending.2).link :=
    ⟨Int.le_add_one (Int.le_refl _), fun _ h => h, Nat.le_refl _, Nat.le_refl _⟩
  refine ⟨rfl, grows, fun sound _ => ⟨sound.shared.registerPending, fun r h => ?_⟩,
    fun link sound => ?_⟩
  · have bound := sound.wire r h
    exact ⟨bound.1, Int.le_trans bound.2 grows.seq⟩
  · have sound' := sound.grows grows
    refine
      { sound' with
        writing := fun q h => ?_
        awaiting := fun _ h => by cases h
        parked := fun _ h => by cases h
        parkedAt := fun _ h => by cases h }
    cases h
    have nonneg := link.shared.seq_nonneg
    exact ⟨by omega, Int.le_refl _⟩

private theorem grows_accept (l : Link) (r : Request) : Grows l (l.accept r) :=
  ⟨Int.le_refl _, fun _ h => List.mem_append_left _ h, Nat.le_refl _, Nat.le_refl _⟩

theorem mem_accept (l : Link) (r : Request) : r ∈ (l.accept r).wire :=
  List.mem_append_right _ (List.mem_singleton.mpr rfl)

private theorem linkSound_accept {l : Link} {r : Request} (sound : LinkSound l)
    (assigned : 1 ≤ r.seq ∧ r.seq ≤ l.shared.seq) : LinkSound (l.accept r) := by
  refine ⟨sound.shared, fun r' h => ?_⟩
  rcases List.mem_append.mp h with old | new
  · exact sound.wire r' old
  · obtain rfl := List.mem_singleton.mp new
    exact assigned

private theorem pollStep_shared {shared : Shared} {program : Dap Reply}
    (seq : shared.seq = c.link.shared.seq)
    (stops : shared.stopWaiter = c.link.shared.stopWaiter)
    (latch : shared.initialized = c.link.shared.initialized)
    (sound : c.link.shared.Sound → shared.Sound) :
    PollStep c f (c.setShared shared) (f.goOn program) := by
  have grows : Grows c.link (c.setShared shared).link :=
    ⟨Int.le_of_eq seq.symm, fun _ h => h, Nat.le_of_eq (congrArg Slot.next stops.symm),
      Nat.le_of_eq (congrArg Slot.next latch.symm)⟩
  refine ⟨rfl, grows, fun link _ => ⟨sound link.shared, fun r h => ?_⟩,
    fun _ fut => futSound_goOn _ (fut.grows grows)⟩
  exact ⟨(link.wire r h).1, Int.le_trans (link.wire r h).2 grows.seq⟩

private theorem removePending_seq (s : Shared) (q : Int) : (s.removePending q).seq = s.seq := by
  unfold Shared.removePending
  split <;> rfl

@[simp] theorem removePending_stopWaiter (s : Shared) (q : Int) :
    (s.removePending q).stopWaiter = s.stopWaiter := by
  unfold Shared.removePending
  split <;> rfl

@[simp] theorem removePending_initialized (s : Shared) (q : Int) :
    (s.removePending q).initialized = s.initialized := by
  unfold Shared.removePending
  split <;> rfl

private theorem pollStep_refused {program : Dap Reply} (q : Int) :
    PollStep c f (c.setShared (c.link.shared.removePending q)) (f.goOn program) :=
  pollStep_shared (removePending_seq _ _) (removePending_stopWaiter _ _)
    (removePending_initialized _ _) fun sound => sound.removePending q

theorem pollStep_of_advances (h : Advances c f choice c' f') : PollStep c f c' f' := by
  cases h with
  | registered => exact pollStep_registered
  | registeredAsync => exact pollStep_registered
  | latched => exact pollStep_goOn rfl rfl
  | parked ready at_ unfired =>
    have grows : Grows c.link (c.setShared c.link.shared.waitInitialized.2).link := by
      refine ⟨?_, fun _ h => h, ?_, ?_⟩ <;>
        simp [Connection.setShared, Shared.waitInitialized, unfired]
    refine ⟨rfl, grows, fun link _ => ⟨link.shared.waitInitialized, fun r h => ?_⟩,
      fun _ fut => ?_⟩
    · exact ⟨(link.wire r h).1, Int.le_trans (link.wire r h).2 grows.seq⟩
    · refine
        { fut.grows grows with
          writing := fun _ h => by cases h
          awaiting := fun _ h => by cases h
          parked := fun w h => ?_
          parkedAt := fun _ _ => ⟨_, at_⟩ }
      cases h
      simp [Connection.setShared, Shared.waitInitialized, unfired]
  | @registeredStop next =>
    have grows : Grows c.link (c.setShared c.link.shared.register.2).link :=
      ⟨Int.le_refl _, fun _ h => h, Nat.le_succ _, Nat.le_refl _⟩
    refine ⟨rfl, grows, fun link _ => ⟨link.shared.register, link.wire⟩, fun _ fut => ?_⟩
    refine { futSound_goOn (next ()) (fut.grows grows) with waiter := fun w h => ?_ }
    cases h
    exact Nat.lt_succ_self _
  | gotReply => exact pollStep_goOn rfl rfl
  | gotStop => exact pollStep_goOn rfl rfl
  | stderr => exact pollStep_goOn rfl rfl
  | tookChild => exact pollStep_goOn rfl rfl
  | killed => exact pollStep_goOn rfl rfl
  | reaped => exact pollStep_goOn rfl rfl
  | @accepted request next seq writing =>
    have grows := grows_accept c.link (request.setSeq seq)
    refine ⟨rfl, grows, fun link fut => linkSound_accept link (fut.writing seq writing),
      fun _ fut => ?_⟩
    refine
      { fut.grows grows with
        writing := fun _ h => by cases h
        awaiting := fun q h => ?_
        parked := fun _ h => by cases h
        parkedAt := fun _ h => by cases h }
    cases h
    exact ⟨_, mem_accept _ _, rfl⟩
  | @acceptedAsync request next seq writing =>
    have grows := grows_accept c.link (request.setSeq seq)
    refine ⟨rfl, grows, fun link fut => linkSound_accept link (fut.writing seq writing),
      fun _ fut => ?_⟩
    refine { futSound_goOn (next (.ok ())) (fut.grows grows) with rx := fun q h => ?_ }
    cases h
    exact ⟨_, mem_accept _ _, rfl⟩
  | refused => exact pollStep_refused _
  | refusedAsync => exact pollStep_refused _
  | replied => exact pollStep_goOn rfl rfl
  | woken => exact pollStep_goOn rfl rfl

private theorem futSound_new (l : Link) (program : Dap Reply) :
    FutSound l (Fut.new program) := by
  constructor <;>
    · intro _ h
      cases h

theorem sound_new (pid : Option Int) : Sound (Connection.new pid) where
  link := ⟨Shared.sound_new, fun _ h => by cases h⟩
  calls _ _ h := by cases h

/-- One call comes, goes or is polled, and the others rely on what they relied on. -/
private theorem calls_setCall (sound : Sound c) (grows : Grows c.link c'.link)
    (calls : c'.calls = c.calls) {slot : Option Fut}
    (mine : ∀ f, slot = some f → FutSound c'.link f) :
    ∀ s f, (c'.setCall t slot).calls s = some f → FutSound c'.link f := by
  intro s f h
  change Function.update c'.calls t slot s = some f at h
  by_cases same : s = t
  · subst same
    rw [Function.update_self] at h
    exact mine f h
  · rw [Function.update_of_ne same, calls] at h
    exact (sound.calls s f h).grows grows

private theorem sound_loop {l : Link} (sound : Sound c) (step : LoopStep c.link l) :
    Sound (c.setLink l) where
  link := step.linkSound sound.link
  calls t f h := (sound.calls t f h).grows step.grows

theorem pollStep_dropFut (c : Connection) (f : Fut) :
    PollStep c f (c.dropFut f) (f.goOn f.program) := by
  unfold Connection.dropFut
  split
  · exact pollStep_refused _
  · exact pollStep_refused _
  · exact pollStep_goOn rfl rfl

theorem Sound.moves {a : Action} (sound : Sound c) (moves : Moves c a c') : Sound c' := by
  cases moves with
  | @start t program fresh =>
    refine ⟨sound.link, calls_setCall sound (Grows.refl _) rfl fun f h => ?_⟩
    cases h
    exact futSound_new _ _
  | @cancel t f here =>
    have drop := pollStep_dropFut c f
    exact ⟨drop.link sound.link (sound.calls t f here),
      calls_setCall sound drop.grows drop.calls fun _ h => by cases h⟩
  | finish =>
    exact ⟨sound.link, calls_setCall sound (Grows.refl _) rfl fun _ h => by cases h⟩
  | pullOutput => exact sound_loop sound (loopStep_same rfl rfl)
  | pullTerminated => exact sound_loop sound (loopStep_same rfl rfl)
  | @poll t choice f f' k here advances =>
    have step := pollStep_of_advances advances
    have fut := sound.calls t f here
    refine ⟨step.link sound.link fut, calls_setCall sound step.grows step.calls fun g h => ?_⟩
    cases h
    exact step.fut sound.link fut
  | receive => exact sound_loop sound (loopStep_dispatch _ _)
  | readError => exact sound_loop sound loopStep_readError
  | proceed proceeds => exact sound_loop sound (loopStep_proceed proceeds)
  | childExit => exact ⟨sound.link, sound.calls⟩
  | stderr => exact ⟨sound.link, sound.calls⟩

/-- No step takes back a frame, a seq or a registration. -/
theorem Moves.grows {a : Action} (moves : Moves c a c') : Grows c.link c'.link := by
  cases moves with
  | start | finish | childExit | stderr => exact Grows.refl _
  | @cancel t f => exact (pollStep_dropFut c f).grows
  | pullOutput | pullTerminated =>
    exact ⟨Int.le_refl _, fun _ h => h, Nat.le_refl _, Nat.le_refl _⟩
  | @poll t choice f f' k here advances => exact (pollStep_of_advances advances).grows
  | receive => exact (loopStep_dispatch _ _).grows
  | readError => exact loopStep_readError.grows
  | proceed proceeds => exact (loopStep_proceed proceeds).grows

/-- The output that the read loop queues in a step. -/
def arrives : Action → List OutputBody
  | .act (.receive (.event (.output body))) => [body]
  | _ => []

private theorem dispatch_arrives (l : Link) (message : DapMessage) :
    (l.dispatch message).output = l.output ++ arrives (.act (.receive message)) := by
  cases message with
  | event event =>
    cases event with
    | output body => rfl
    | terminated =>
      simp only [Link.dispatch, Link.dispatchEvent, Link.fireTerminated, arrives, List.append_nil]
      split <;> rfl
    | _ => exact (List.append_nil _).symm
  | response | other => exact (List.append_nil _).symm

/-- Chunks are queued by the read loop alone, and leave the queue by the event stream alone. -/
theorem Moves.output {a : Action} (moves : Moves c a c') (unread : a ≠ .pull .output) :
    c'.link.output = c.link.output ++ arrives a := by
  have same : arrives a = [] → c'.link.output = c.link.output →
      c'.link.output = c.link.output ++ arrives a := by
    intro none eq
    rw [none, List.append_nil, eq]
  cases moves with
  | pullOutput => exact absurd rfl unread
  | receive => exact dispatch_arrives _ _
  | @cancel t f =>
    refine same rfl ?_
    change (c.dropFut f).link.output = c.link.output
    unfold Connection.dropFut
    split <;> rfl
  | poll here advances => exact same rfl advances.loop_eq.2.2.1
  | proceed proceeds =>
    refine same rfl ?_
    unfold Link.proceed at proceeds
    split at proceeds
    · obtain rfl := Option.some.inj proceeds
      rfl
    · obtain rfl := Option.some.inj proceeds
      rfl
    · obtain rfl := Option.some.inj proceeds
      simp only [Connection.setLink, Link.fireTerminated]
      split <;> rfl
    · cases proceeds
    · cases proceeds
  | _ => exact same rfl rfl

/-- A call stays as it is until it is polled, dropped or finished. -/
theorem call_moves {a : Action} (moves : Moves c a c')
    (here : c.calls t = some f) (kept : a ≠ .cancel t) (unfinished : a ≠ .finish t) :
    c'.calls t = some f ∨ ∃ choice k f', Advances c f choice k f' ∧
      c' = k.setCall t (some f') := by
  have other : ∀ {k : Connection} {t' : Nat} {slot : Option Fut}, t ≠ t' → k.calls = c.calls →
      (k.setCall t' slot).calls t = some f := by
    intro k t' slot ne calls
    change Function.update k.calls t' slot t = some f
    rw [Function.update_of_ne ne, calls]
    exact here
  cases moves with
  | @start t' program fresh =>
    refine .inl (other ?_ rfl)
    rintro rfl
    cases here.symm.trans fresh
  | @cancel t' g =>
    refine .inl (other ?_ (pollStep_dropFut c g).calls)
    rintro rfl
    exact kept rfl
  | @finish t' =>
    refine .inl (other ?_ rfl)
    rintro rfl
    exact unfinished rfl
  | @poll t' choice g g' k there advances =>
    by_cases same : t = t'
    · subst same
      obtain rfl := Option.some.inj (here.symm.trans there)
      exact .inr ⟨choice, k, g', advances, rfl⟩
    · exact .inl (other same (pollStep_of_advances advances).calls)
  | pullOutput | pullTerminated | receive | readError | proceed | childExit | stderr =>
    exact .inl here

/-- Calls come only by their beginning. -/
theorem calls_of_moves {a : Action} (moves : Moves c a c')
    (beginsNone : ∀ t program, a ≠ .start t program)
    (there : c'.calls t = some f') : ∃ f, c.calls t = some f := by
  have other : ∀ {k : Connection} {s : Nat}, k.calls = c.calls →
      (k.setCall s none).calls t = some f' →
      ∃ f, c.calls t = some f := by
    intro k s calls there
    change Function.update k.calls s none t = some f' at there
    by_cases same : t = s
    · rw [same, Function.update_self] at there
      cases there
    · rw [Function.update_of_ne same, calls] at there
      exact ⟨f', there⟩
  cases moves with
  | start => exact absurd rfl (beginsNone _ _)
  | @cancel s f here => exact other (pollStep_dropFut c f).calls there
  | finish => exact other rfl there
  | @poll s choice f g k here advances =>
    change Function.update k.calls s (some g) t = some f' at there
    by_cases same : t = s
    · exact ⟨f, same ▸ here⟩
    · rw [Function.update_of_ne same, (pollStep_of_advances advances).calls] at there
      exact ⟨f', there⟩
  | pullOutput | pullTerminated | receive | readError | proceed | childExit | stderr =>
    exact ⟨f', there⟩

/-- Every reachable connection is sound. -/
theorem sound_of_reach {pid : Option Int} (reach : Reach Connection.step (Connection.new pid) c) :
    Sound c :=
  reach.keeps (fun _ _ _ sound taken => sound.moves (moves_of_step taken)) (sound_new pid)

/-- What an operation on the child does, and what it results in. -/
def Performs (c : Connection) : (i : Op) → i.Result → Connection → Prop
  | .takeChild, taken, c' => taken = c.child ∧ c'.child = false
  | .startKill, _, c' => c'.killed = true
  | _, _, _ => True

theorem Performs.setCall {i : Op} {r : i.Result} {slot : Option Fut} (h : Performs c i r c') :
    Performs c i r (c'.setCall t slot) := by
  cases i <;> exact h

/-- A poll leaves the program where it is, or it performs the next operation of it. -/
theorem Advances.program_cases (h : Advances c f choice c' f') :
    f'.program = f.program ∨
    ∃ i next r, f.program = .op i next ∧ f'.program = next r ∧ Performs c i r c' := by
  cases h with
  | registered | registeredAsync | parked | accepted => exact .inl rfl
  | tookChild _ at_ => exact .inr ⟨_, _, _, at_, rfl, rfl, rfl⟩
  | killed _ at_ => exact .inr ⟨_, _, _, at_, rfl, rfl⟩
  | latched _ at_ | registeredStop _ at_ | gotReply _ at_ | gotStop _ at_ | stderr _ at_
  | reaped _ at_ | acceptedAsync _ at_ | refused _ at_ | refusedAsync _ at_ | replied _ at_
  | woken _ at_ => exact .inr ⟨_, _, _, at_, rfl, trivial⟩

/-- The programs that are begun are bodies of calls. -/
def Called (_ : Connection) : Action → Prop
  | .start _ program => ∃ call : Call, program = call.program
  | _ => True

/-- A connection that carries calls only, at some point of its course. -/
def Served (c : Connection) : Prop :=
  ∃ pid as, Run Connection.step Called (Connection.new pid) as c

theorem Served.sound (served : Served c) : Sound c := by
  obtain ⟨pid, as, run⟩ := served
  exact sound_of_reach ⟨as, run.any⟩

/-- The invariant rule for such connections. -/
theorem Served.keeps {I : Connection → Prop} (fresh : ∀ pid, I (Connection.new pid))
    (next : ∀ c a c', Served c → I c → Called c a → Moves c a c' → I c') (served : Served c) :
    I c := by
  obtain ⟨pid, as, run⟩ := served
  have both : Served c ∧ I c := by
    refine run.keeps (I := fun c => Served c ∧ I c) ?_ ⟨⟨pid, [], .nil _⟩, fresh pid⟩
    rintro c a c' ⟨⟨pid, as, before⟩, ih⟩ called taken
    exact ⟨⟨pid, as ++ [a], before.append (.single called taken)⟩,
      next c a c' ⟨pid, as, before⟩ ih called (moves_of_step taken)⟩
  exact both.2

/-- The invariant rule for the calls in flight: each begins with it, keeps it when the connection
moves otherwise, and keeps it when it is polled. -/
theorem Served.calls {J : Connection → Fut → Prop}
    (start : ∀ c (call : Call), J c (Fut.new call.program))
    (others : ∀ c a c' f, J c f → Moves c a c' → J c' f)
    (polled : ∀ c t choice f k f', Served c → c.calls t = some f → Advances c f choice k f' →
      J c f → J (k.setCall t (some f')) f')
    (served : Served c) : ∀ t f, c.calls t = some f → J c f := by
  refine served.keeps (I := fun c => ∀ t f, c.calls t = some f → J c f)
    (fun pid t f h => by cases h) ?_
  intro c a c' served ih called moves s g there
  have kept : ∀ f, J c f → J c' f := fun f fits => others c a c' f fits moves
  have update : ∀ {k : Connection} {t : Nat} {slot : Option Fut}, k.calls = c.calls →
      (∀ f, slot = some f → J c' f) → (k.setCall t slot).calls s = some g → J c' g := by
    intro k t slot calls mine there
    change Function.update k.calls t slot s = some g at there
    by_cases same : s = t
    · subst same
      rw [Function.update_self] at there
      exact mine g there
    · rw [Function.update_of_ne same, calls] at there
      exact kept g (ih s g there)
  cases moves with
  | @start t program fresh =>
    obtain ⟨call, rfl⟩ := called
    refine update rfl (fun f h => ?_) there
    cases h
    exact start _ call
  | @cancel t f here =>
    exact update (pollStep_dropFut c f).calls (fun f h => by cases h) there
  | finish => exact update rfl (fun f h => by cases h) there
  | @poll t choice f f' k here advances =>
    refine update (pollStep_of_advances advances).calls (fun f h => ?_) there
    cases h
    exact polled c t choice f k f' served here advances (ih t f here)
  | pullOutput | pullTerminated | receive | readError | proceed | childExit | stderr =>
    exact kept g (ih s g there)

section

variable {γ : Type} {ok : γ → Op → Prop} {after : γ → (i : Op) → i.Result → γ}
  {post : γ → Reply → Prop} {first : γ} {R : γ → Connection → Prop}

/-- A call in flight follows its specification from a ghost state that fits the connection. -/
def Follows (ok : γ → Op → Prop) (after : γ → (i : Op) → i.Result → γ) (post : γ → Reply → Prop)
    (R : γ → Connection → Prop) (c : Connection) (f : Fut) : Prop :=
  ∃ g, Program.Safe ok after post g f.program ∧ R g c

/-- What every call follows from its beginning, every call in flight still follows. -/
theorem Served.follows (calls : ∀ call : Call, Program.Safe ok after post first call.program)
    (start : ∀ c, R first c) (keep : ∀ g c a c', R g c → Moves c a c' → R g c')
    (perform : ∀ g c i r c', R g c' → Performs c i r c' → R (after g i r) c')
    (served : Served c) : ∀ t f, c.calls t = some f → Follows ok after post R c f := by
  refine served.calls (fun c call => ⟨first, calls call, start c⟩)
    (fun c a c' f ⟨g, safe, fits⟩ moves => ⟨g, safe, keep g c a c' fits moves⟩) ?_
  intro c t choice f k f' _ here advances ⟨g, safe, fits⟩
  have kept := keep g c _ _ fits (.poll here advances)
  rcases advances.program_cases with eq | ⟨i, next, r, at_, eq, performs⟩
  · exact ⟨g, eq ▸ safe, kept⟩
  · rw [at_] at safe
    exact ⟨after g i r, eq ▸ safe.2 r, perform g c i r _ kept performs.setCall⟩

end

/-- The request `q` has left the map, and the reply that its receiver sees is `o`. -/
structure Replied (q : Int) (o : OneShot PendingResult) (s : Shared) : Prop where
  gone : q ∉ s.pending
  assigned : q ≤ s.seq
  reply : s.replies q = o

/-- The stop waiter `w` has left the slot, and what its receiver sees is `o`. -/
structure Answered (w : Nat) (o : OneShot StopOutcome) (s : Shared) : Prop where
  gone : s.stopWaiter.slot ≠ some w
  registered : w < s.stopWaiter.next
  outcome : s.stopWaiter.chan w = o

variable {q : Int} {w : Nat} {o : OneShot PendingResult} {v : OneShot StopOutcome} {s : Shared}

private theorem replied_take (replied : Replied q o s) {seq : Int} (there : seq ∈ s.pending)
    {r : OneShot PendingResult} :
    Replied q o { s with
      pending := s.pending.erase seq
      replies := Function.update s.replies seq r } where
  gone h := replied.gone (Finset.mem_of_mem_erase h)
  assigned := replied.assigned
  reply := by
    have other : q ≠ seq := by
      rintro rfl
      exact replied.gone there
    exact (Function.update_of_ne other _ _).trans replied.reply

private theorem replied_removePending (replied : Replied q o s) (seq : Int) :
    Replied q o (s.removePending seq) := by
  unfold Shared.removePending
  split
  · rename_i there
    exact replied_take replied there
  · exact replied

private theorem replied_registerPending (replied : Replied q o s) :
    Replied q o s.registerPending.2 := by
  have older : q ≠ s.seq + 1 := by
    have := replied.assigned
    omega
  refine ⟨fun h => ?_, Int.le_trans replied.assigned (Int.le_add_one (Int.le_refl _)), ?_⟩
  · rcases Finset.mem_insert.mp h with new | old
    · exact older new
    · exact replied.gone old
  · exact (Function.update_of_ne older _ _).trans replied.reply

private theorem replied_same {s' : Shared} (replied : Replied q o s)
    (seq : s'.seq = s.seq) (pending : s'.pending = s.pending) (replies : s'.replies = s.replies) :
    Replied q o s' :=
  ⟨pending ▸ replied.gone, seq ▸ replied.assigned, replies ▸ replied.reply⟩

private theorem replied_dispatch {l : Link} (replied : Replied q o l.shared)
    (message : DapMessage) : Replied q o (l.dispatch message).shared := by
  cases message with
  | response response =>
    simp only [Link.dispatch, Shared.dispatchResponse]
    split
    · rename_i there
      exact replied_take replied there
    · exact replied
  | event event =>
    cases event with
    | terminated =>
      exact replied_same replied (by simp [Link.dispatch, Link.dispatchEvent])
        (by simp [Link.dispatch, Link.dispatchEvent]) (by simp [Link.dispatch, Link.dispatchEvent])
    | _ => exact replied_same replied rfl rfl rfl
  | other envelope => exact replied

private theorem replied_cancelAll (replied : Replied q o s) (err : BackendError) :
    Replied q o (s.cancelAllPending err) where
  gone h := by simp [Shared.cancelAllPending] at h
  assigned := replied.assigned
  reply := by
    simp only [Shared.cancelAllPending, replied.gone, if_false]
    exact replied.reply

/-- A reply that is settled stays. -/
theorem Replied.moves {a : Action} (replied : Replied q o c.link.shared) (moves : Moves c a c') :
    Replied q o c'.link.shared := by
  cases moves with
  | @cancel t f =>
    change Replied q o (c.dropFut f).link.shared
    unfold Connection.dropFut
    split
    · exact replied_removePending replied _
    · exact replied_removePending replied _
    · exact replied
  | poll here advances =>
    cases advances with
    | registered | registeredAsync => exact replied_registerPending replied
    | refused | refusedAsync => exact replied_removePending replied _
    | parked _ _ unfired =>
      refine replied_same replied ?_ ?_ ?_ <;>
        simp [Connection.setCall, Connection.setShared, Shared.waitInitialized, unfired]
    | _ => exact replied_same replied rfl rfl rfl
  | receive => exact replied_dispatch replied _
  | readError => exact replied_cancelAll replied _
  | proceed proceeds =>
    unfold Link.proceed at proceeds
    split at proceeds <;> cases proceeds
    · exact replied_same replied rfl rfl rfl
    · exact replied_same replied rfl rfl rfl
    · exact replied_same replied (by simp [Connection.setLink]) (by simp [Connection.setLink])
        (by simp [Connection.setLink])
  | _ => exact replied_same replied rfl rfl rfl

private theorem answered_same {s' : Shared} (answered : Answered w v s)
    (same : s'.stopWaiter = s.stopWaiter) : Answered w v s' :=
  ⟨same ▸ answered.gone, same ▸ answered.registered, same ▸ answered.outcome⟩

private theorem answered_send {s' : Shared} {out : StopOutcome} (answered : Answered w v s)
    (sent : s'.stopWaiter = s.stopWaiter.send out) : Answered w v s' := by
  refine ⟨?_, ?_, ?_⟩ <;> rw [sent]
  · simp
  · simpa using answered.registered
  · rw [Slot.send_chan_other out answered.gone]
    exact answered.outcome

private theorem answered_register (answered : Answered w v s) : Answered w v s.register.2 := by
  have older : w ≠ s.stopWaiter.next := Nat.ne_of_lt answered.registered
  refine ⟨fun h => older (Option.some.inj h).symm, Nat.lt_succ_of_lt answered.registered, ?_⟩
  exact (Slot.register_chan_other older answered.gone).trans answered.outcome

private theorem dispatch_stopWaiter (l : Link) (message : DapMessage) :
    (l.dispatch message).shared.stopWaiter = l.shared.stopWaiter ∨
    ∃ out, (l.dispatch message).shared.stopWaiter = l.shared.stopWaiter.send out := by
  cases message with
  | response response =>
    left
    simp only [Link.dispatch, Shared.dispatchResponse]
    split <;> rfl
  | event event =>
    cases event with
    | stopped body => exact .inr ⟨_, rfl⟩
    | exited body => exact .inr ⟨_, rfl⟩
    | terminated => exact .inl (by simp [Link.dispatch, Link.dispatchEvent])
    | _ => exact .inl rfl
  | other envelope => exact .inl rfl

/-- An outcome that is settled stays. -/
theorem Answered.moves {a : Action} (answered : Answered w v c.link.shared)
    (moves : Moves c a c') : Answered w v c'.link.shared := by
  cases moves with
  | @cancel t f =>
    change Answered w v (c.dropFut f).link.shared
    unfold Connection.dropFut
    split
    · exact answered_same answered (removePending_stopWaiter _ _)
    · exact answered_same answered (removePending_stopWaiter _ _)
    · exact answered
  | poll here advances =>
    cases advances with
    | registeredStop => exact answered_register answered
    | refused | refusedAsync => exact answered_same answered (removePending_stopWaiter _ _)
    | parked _ _ unfired =>
      refine answered_same answered ?_
      simp [Connection.setCall, Connection.setShared, Shared.waitInitialized, unfired]
    | _ => exact answered_same answered rfl
  | @receive message =>
    rcases dispatch_stopWaiter c.link message with same | ⟨out, sent⟩
    · exact answered_same answered same
    · exact answered_send answered sent
  | readError => exact answered_same answered rfl
  | proceed proceeds =>
    unfold Link.proceed at proceeds
    split at proceeds <;> cases proceeds
    · exact answered_send answered rfl
    · exact answered_send answered rfl
    · exact answered_same answered (by simp [Connection.setLink])
  | _ => exact answered_same answered rfl

end LldbDebugMcp.Backend.Steps
