/- module: LldbDebugMcp/Backend/Recovery
   source: crates/dap-client/src/client.rs, crates/dap-client/src/read_loop.rs
   digest: What the end of the read loop leaves of the requests and waiters in flight. -/

import LldbDebugMcp.Backend.Steps

set_option autoImplicit false
set_option relaxedAutoImplicit false

namespace LldbDebugMcp.Backend.Recovery

open LldbDebugMcp.Core.Types
open LldbDebugMcp.Client.Message
open LldbDebugMcp.Client.State
open LldbDebugMcp.Client.ReadLoop
open LldbDebugMcp.Library.Channel
open LldbDebugMcp.Library.Effect
open LldbDebugMcp.Library.Transition
open LldbDebugMcp.Backend.Operations
open LldbDebugMcp.Backend.Adapter
open LldbDebugMcp.Backend.Steps

variable {c c' : Connection} {l l' : Link} {f f' : Fut} {choice : Choice} {a : Action} {t : Nat}

/-- `recover` has failed the pending requests. -/
def hasDrained : Phase → Bool
  | .drained | .cancelled | .stopped => true
  | .reading | .terminating => false

/-- `recover` has cancelled the stop waiter. -/
def hasCancelled : Phase → Bool
  | .cancelled | .stopped => true
  | .reading | .terminating | .drained => false

/-- The seq of the request whose write the poll completes. -/
def written (f : Fut) : Choice → Option Int
  | .accept =>
    match f.await with
    | .writing q => some q
    | _ => none
  | .go | .refuse _ => none

/-- The poll registers a stop waiter. -/
def registers (f : Fut) : Choice → Bool
  | .go =>
    match f.await, f.program with
    | .created, .op .register _ | .running, .op .register _ => true
    | _, _ => false
  | .accept | .refuse _ => false

/-- What a poll must not do: complete the write of a request that is pending once the pending
requests were failed, or register a stop waiter once the waiter was cancelled. -/
def PollsInTime (l : Link) (f : Fut) (choice : Choice) : Prop :=
  (hasDrained l.loop = true → ∀ q, written f choice = some q → q ∉ l.shared.pending) ∧
  (hasCancelled l.loop = true → registers f choice = false)

/-- Nothing is sent or registered behind the back of `recover`. -/
def InTime (c : Connection) : Action → Prop
  | .act (.poll t choice) => ∀ f, c.calls t = some f → PollsInTime c.link f choice
  | _ => True

/-- No entry of a written request is left after the drain, and no waiter after the cancel. -/
structure Drained (l : Link) : Prop where
  pending : hasDrained l.loop = true → ∀ q ∈ l.shared.pending, ∀ r ∈ l.wire, r.seq ≠ q
  slot : hasCancelled l.loop = true → l.shared.stopWaiter.slot = none

/-- No wait is left that nothing can resolve. -/
structure Settled (c : Connection) : Prop where
  pending : ∀ q ∈ c.link.shared.pending, ∀ r ∈ c.link.wire, r.seq ≠ q
  slot : c.link.shared.stopWaiter.slot = none
  /-- Every reply that is awaited is there, or its sender is gone. -/
  reply : ∀ t f q, c.calls t = some f → f.await = .awaiting q ∨ f.rx = some q →
    c.link.shared.replies q ≠ .empty
  /-- So is every outcome of a stop waiter. -/
  stop : ∀ t f w, c.calls t = some f → f.waiter = some w →
    c.link.shared.stopWaiter.chan w ≠ .empty

theorem settled_of_drained (sound : Sound c) (drained : Drained c.link)
    (stopped : c.link.loop = .stopped) : Settled c := by
  have pending := drained.pending (by rw [stopped]; rfl)
  have slot := drained.slot (by rw [stopped]; rfl)
  refine ⟨pending, slot, fun t f q here waits => ?_, fun t f w here waits => ?_⟩
  · have fut := sound.calls t f here
    obtain ⟨r, hr, rfl⟩ : ∃ r ∈ c.link.wire, r.seq = q := by
      rcases waits with awaiting | rx
      · exact fut.awaiting q awaiting
      · exact fut.rx q rx
    have bound := sound.link.wire r hr
    exact sound.link.shared.settled r.seq bound.1 bound.2 fun h => pending r.seq h r hr rfl
  · refine sound.link.shared.stopWaiter.settled w ((sound.calls t f here).waiter w waits) ?_
    rw [slot]
    exact fun h => by cases h

/-- A step that adds no entry, no frame and no waiter, and that leaves the loop's phase. -/
private theorem drained_mono (drained : Drained l) (loop : l'.loop = l.loop)
    (pending : l'.shared.pending ⊆ l.shared.pending) (wire : l'.wire = l.wire)
    (slot : l.shared.stopWaiter.slot = none → l'.shared.stopWaiter.slot = none) : Drained l' where
  pending h q hq r hr := by
    rw [loop] at h
    rw [wire] at hr
    exact drained.pending h q (pending hq) r hr
  slot h := by
    rw [loop] at h
    exact slot (drained.slot h)

private theorem removePending_subset (s : Shared) (q : Int) :
    (s.removePending q).pending ⊆ s.pending := by
  unfold Shared.removePending
  split
  · exact Finset.erase_subset _ _
  · exact Finset.Subset.refl _

private theorem drained_remove (drained : Drained c.link) (q : Int) :
    Drained (c.setShared (c.link.shared.removePending q)).link :=
  drained_mono drained rfl (removePending_subset _ _) rfl fun h => by
    change (c.link.shared.removePending q).stopWaiter.slot = none
    rwa [removePending_stopWaiter]

private theorem drained_registerPending (sound : LinkSound c.link) (drained : Drained c.link) :
    Drained (c.setShared c.link.shared.registerPending.2).link where
  pending h q hq r hr := by
    rcases Finset.mem_insert.mp hq with rfl | old
    · have bound := sound.wire r hr
      exact fun eq => by omega
    · exact drained.pending h q old r hr
  slot := drained.slot

private theorem drained_accept {r : Request} (drained : Drained l)
    (inTime : hasDrained l.loop = true → r.seq ∉ l.shared.pending) : Drained (l.accept r) where
  pending h q hq r' hr' := by
    rcases List.mem_append.mp hr' with old | new
    · exact drained.pending h q hq r' old
    · obtain rfl := List.mem_singleton.mp new
      rintro rfl
      exact inTime h hq
  slot := drained.slot

private theorem drained_advances (sound : LinkSound c.link) (drained : Drained c.link)
    (inTime : PollsInTime c.link f choice) (h : Advances c f choice c' f') : Drained c'.link := by
  cases h with
  | registered | registeredAsync => exact drained_registerPending sound drained
  | parked _ _ unfired =>
    refine drained_mono drained rfl ?_ rfl ?_ <;>
      simp [Connection.setShared, Shared.waitInitialized, unfired]
  | registeredStop ready at_ =>
    refine ⟨drained.pending, fun h => ?_⟩
    have busy := inTime.2 h
    rcases ready with ready | ready <;> simp [registers, ready, at_] at busy
  | accepted writing | acceptedAsync writing =>
    refine drained_accept drained fun h => inTime.1 h _ ?_
    simp [written, writing, Request.setSeq]
  | refused | refusedAsync => exact drained_remove drained _
  | latched | gotReply | gotStop | stderr | tookChild | killed | reaped | replied | woken =>
    exact drained

/-- The read loop dispatches only while it reads. -/
theorem hasDrained_dispatch (reading : l.loop = .reading) (message : DapMessage) :
    hasDrained (l.dispatch message).loop = false := by
  have still : hasDrained l.loop = false := by rw [reading]; rfl
  cases message with
  | event event => cases event <;> first | exact still | rfl
  | response => exact still
  | other => exact still

private theorem hasDrained_of_hasCancelled {p : Phase} (h : hasCancelled p = true) :
    hasDrained p = true := by
  cases p <;> first | rfl | cases h

private theorem drained_early (early : hasDrained l.loop = false) : Drained l where
  pending h := by rw [early] at h; cases h
  slot h := by rw [hasDrained_of_hasCancelled h] at early; cases early

private theorem drained_proceed (drained : Drained l) (h : l.proceed = some l') :
    Drained l' := by
  unfold Link.proceed at h
  split at h
  · cases h
    exact drained_early rfl
  · rename_i loop
    cases h
    exact ⟨fun _ => drained.pending (by rw [loop]; rfl), fun _ => Slot.send_slot _ _⟩
  · rename_i loop
    cases h
    refine ⟨fun _ => ?_, fun _ => ?_⟩
    · simp only [fireTerminated_shared, fireTerminated_wire]
      exact drained.pending (by rw [loop]; rfl)
    · simp only [fireTerminated_shared]
      exact drained.slot (by rw [loop]; rfl)
  · cases h
  · cases h

private theorem Drained.moves (sound : Sound c) (drained : Drained c.link) (inTime : InTime c a)
    (moves : Moves c a c') : Drained c'.link := by
  cases moves with
  | @cancel t f =>
    change Drained (c.dropFut f).link
    unfold Connection.dropFut
    split
    · exact drained_remove drained _
    · exact drained_remove drained _
    · exact drained
  | poll here advances =>
    have after := drained_advances sound.link drained (inTime _ here) advances
    exact ⟨after.pending, after.slot⟩
  | receive reading => exact drained_early (hasDrained_dispatch reading _)
  | readError => exact ⟨fun _ q hq => absurd hq (Finset.notMem_empty q), fun h => by cases h⟩
  | proceed proceeds => exact drained_proceed drained proceeds
  | start | finish | pullOutput | pullTerminated | childExit | stderr =>
    exact ⟨drained.pending, drained.slot⟩

private theorem drained_run {pid : Option Int} {as : List Action}
    (run : Run Connection.step InTime (Connection.new pid) as c) : Sound c ∧ Drained c.link := by
  refine run.keeps (I := fun c => Sound c ∧ Drained c.link) ?_ ⟨sound_new pid, drained_early rfl⟩
  rintro c a c' ⟨sound, drained⟩ inTime taken
  have moves := moves_of_step taken
  exact ⟨sound.moves moves, drained.moves sound inTime moves⟩

private theorem stopped_stays (moves : Moves c a c') (stopped : c.link.loop = .stopped) :
    c'.link.loop = .stopped := by
  cases moves with
  | cancel =>
    simp only [Connection.setCall, Connection.dropFut]
    split <;> exact stopped
  | poll here advances => cases advances <;> exact stopped
  | receive reading | readError reading => cases reading.symm.trans stopped
  | proceed proceeds => simp [Link.proceed, stopped] at proceeds
  | start | finish | pullOutput | pullTerminated | childExit | stderr => exact stopped

private theorem written_eq {q : Int} (h : written f choice = some q) :
    choice = .accept ∧ f.await = .writing q := by
  unfold written at h
  split at h
  · split at h
    · cases h
      exact ⟨rfl, ‹_›⟩
    · cases h
  · cases h
  · cases h

private theorem registers_eq (h : registers f choice = true) :
    choice = .go ∧ Ready f ∧ ∃ next, f.program = .op .register next := by
  unfold registers at h
  split at h
  · split at h
    · exact ⟨rfl, .inl ‹_›, _, ‹_›⟩
    · exact ⟨rfl, .inr ‹_›, _, ‹_›⟩
    · cases h
  · cases h
  · cases h

/-- A frame taken late leaves its entry in the map. -/
private theorem strands_request {q : Int} (advances : Advances c f .accept c' f')
    (writing : f.await = .writing q) (pending : q ∈ c.link.shared.pending) :
    ∃ q ∈ c'.link.shared.pending, ∃ r ∈ c'.link.wire, r.seq = q := by
  cases advances with
  | accepted writing' | acceptedAsync writing' =>
    cases writing.symm.trans writing'
    exact ⟨q, pending, _, mem_accept _ _, rfl⟩

/-- A waiter registered late leaves its sender in the slot. -/
private theorem strands_waiter {next : Unit → Dap Reply} (advances : Advances c f .go c' f')
    (ready : Ready f) (at_ : f.program = .op .register next) :
    c'.link.shared.stopWaiter.slot ≠ none := by
  have busy : ∀ {w : Await}, f.await = w → w ≠ .created → w ≠ .running → False := by
    rintro w rfl created running
    exact ready.elim created running
  cases advances with
  | registeredStop => exact fun h => by cases h
  | replied awaiting => exact (busy awaiting (by simp) (by simp)).elim
  | woken parked => exact (busy parked (by simp) (by simp)).elim
  | registered _ other | registeredAsync _ other | latched _ other | parked _ other
  | gotReply _ other | gotStop _ other | stderr _ other | tookChild _ other | killed _ other
  | reaped _ other => cases at_.symm.trans other

private theorem inTime_of_settled (settled : Settled c') (moves : Moves c a c') : InTime c a := by
  cases moves with
  | @poll t choice f f' k here advances =>
    intro g here'
    obtain rfl := Option.some.inj (here.symm.trans here')
    constructor
    · intro _ q write pending
      obtain ⟨rfl, writing⟩ := written_eq write
      obtain ⟨q, hq, r, hr, eq⟩ := strands_request advances writing pending
      exact settled.pending q hq r hr eq
    · intro _
      rw [← Bool.not_eq_true]
      intro register
      obtain ⟨rfl, ready, next, at_⟩ := registers_eq register
      exact strands_waiter advances ready at_ settled.slot
  | _ => trivial

/-- When everything was in time until `recover` returned, no wait is left that nothing can
resolve, and none comes exactly as long as no frame of a pending request is taken any more
and no stop waiter registers. -/
theorem recover_settles_iff {pid : Option Int} {as bs : List Action} {d : Connection}
    (run : Run Connection.step InTime (Connection.new pid) as c)
    (returned : c.link.loop = .stopped) (later : Run Connection.step anyStep c bs d) :
    Throughout Connection.step Settled c bs d ↔ Run Connection.step InTime c bs d := by
  obtain ⟨sound, drained⟩ := drained_run run
  refine later.throughout_iff (J := fun c => Sound c ∧ c.link.loop = .stopped) ?_ ?_
    ⟨sound, returned⟩ (settled_of_drained sound drained returned)
  · rintro c a c' ⟨sound, stopped⟩ - taken
    have moves := moves_of_step taken
    exact ⟨sound.moves moves, stopped_stays moves stopped⟩
  · rintro c a c' ⟨sound, stopped⟩ settled - taken
    have moves := moves_of_step taken
    refine ⟨fun settled' => inTime_of_settled settled' moves, fun inTime => ?_⟩
    have drained : Drained c.link := ⟨fun _ => settled.pending, fun _ => settled.slot⟩
    exact settled_of_drained (sound.moves moves) (drained.moves sound inTime moves)
      (stopped_stays moves stopped)

/-- The loop stops on a malformed frame. -/
def stop : List Action := [.act .readError, .act .proceed, .act .proceed]

/-- Stdin still takes a `pause` request. -/
def sendPause : List Action :=
  [.start 0 (Call.program .pause), .act (.poll 0 .go), .act (.poll 0 .accept)]

private theorem pause_after_stop : ∃ c d : Connection,
    Run Connection.step InTime (Connection.new none) stop c ∧ c.link.loop = .stopped ∧
    Run Connection.step anyStep c sendPause d ∧ d.link.loop = .stopped ∧
    ∃ q ∈ d.link.shared.pending, ∃ r ∈ d.link.wire, r.seq = q := by
  have observed : ((exec Connection.step anyStep (Connection.new none) (stop ++ sendPause)).map
      fun c => (decide (c.link.loop = .stopped), decide ((1 : Int) ∈ c.link.shared.pending),
        decide ((1 : Int) ∈ c.link.wire.map (·.seq)))) = some (true, true, true) := by
    decide +kernel
  obtain ⟨d, executed, eq⟩ := Option.map_eq_some_iff.mp observed
  simp only [Prod.mk.injEq, decide_eq_true_eq, List.mem_map] at eq
  obtain ⟨c, before, after⟩ := (run_of_exec executed).split
  have first : Run Connection.step InTime (Connection.new none) stop _ :=
    .cons trivial rfl (.cons trivial rfl (.cons trivial rfl (.nil _)))
  obtain rfl := first.last_eq before
  exact ⟨_, d, first, rfl, after, eq.1, 1, eq.2⟩

theorem recover_settles_iff_pause : ∃ c d : Connection,
    Throughout Connection.step Settled c sendPause d ↔
      Run Connection.step InTime c sendPause d := by
  obtain ⟨c, d, first, stopped, later, -⟩ := pause_after_stop
  exact ⟨c, d, recover_settles_iff first stopped later⟩

/-- The request of such a `pause` stays pending, and its reply never comes. -/
theorem recover_strands_pause : ¬ ∀ (pid : Option Int) (c : Connection),
    Reach Connection.step (Connection.new pid) c → c.link.loop = .stopped → Settled c := by
  intro settles
  obtain ⟨c, d, first, -, later, stopped, q, pending, r, hr, seq⟩ := pause_after_stop
  exact (settles none d (Reach.run ⟨_, first.any⟩ later) stopped).pending q pending r hr seq

end LldbDebugMcp.Backend.Recovery
