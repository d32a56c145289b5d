/- module: LldbDebugMcp/Client/StopWaiter
   source: crates/dap-client/src/stop_waiter.rs
   digest: What the receiver of each registration gets, over any sequence of operations. -/

import LldbDebugMcp.Client.State

set_option autoImplicit false
set_option relaxedAutoImplicit false

namespace LldbDebugMcp.Client.StopWaiter

open LldbDebugMcp.Core.Types
open LldbDebugMcp.Client.Message
open LldbDebugMcp.Client.State
open LldbDebugMcp.Library.Channel

/-- The operations on the waiter, and the drop of the receiver of a registration. -/
inductive Op where
  | register
  | deliver (event : StoppedBody)
  | deliverExit (exitCode : Int)
  | cancel
  | dropReceiver (waiter : Nat)
  deriving DecidableEq

/-- The outcome that a producer sends. -/
def Op.outcome : Op → Option StopOutcome
  | .deliver event => some (.stopped (stopInfoFromEvent event))
  | .deliverExit exitCode => some (.exited (some exitCode))
  | .cancel => some .terminated
  | .register | .dropReceiver _ => none

/-- The client's shared state, and the receivers that were dropped. -/
structure Waiting where
  shared : Shared
  dropped : Finset Nat

namespace Waiting

def new : Waiting := ⟨Shared.new, ∅⟩

/-- One operation. A receiver is dropped after its registration, and the slot does not learn
of it. -/
def apply (s : Waiting) : Op → Waiting
  | .register => { s with shared := s.shared.register.2 }
  | .deliver event => { s with shared := s.shared.deliver event }
  | .deliverExit exitCode => { s with shared := s.shared.deliverExit exitCode }
  | .cancel => { s with shared := s.shared.cancel }
  | .dropReceiver waiter =>
    if waiter < s.shared.stopWaiter.next then { s with dropped := insert waiter s.dropped } else s

def run (s : Waiting) (ops : List Op) : Waiting := ops.foldl apply s

/-- What the receiver of a registration sees, if it is still there. -/
def sees (s : Waiting) (waiter : Nat) : Option (OneShot StopOutcome) :=
  if waiter ∈ s.dropped then none else some (s.shared.stopWaiter.chan waiter)

/-- The operation hands an outcome to the receiver. -/
def Hands (s : Waiting) (op : Op) (waiter : Nat) : Prop :=
  s.shared.stopWaiter.chan waiter = .empty ∧
    ∃ outcome, (s.apply op).shared.stopWaiter.chan waiter = .sent outcome

end Waiting

open Waiting

/-- How many registrations there were; the next one has this name. -/
def registrations (ops : List Op) : Nat := ops.count .register

/-- Whether a registration came after the last producer. -/
def armed : List Op → Bool :=
  List.foldl (fun before op =>
    match op with
    | .register => true
    | .dropReceiver _ => before
    | .deliver _ | .deliverExit _ | .cancel => false) false

/-- What the operations after a registration decide for its receiver. -/
def fate : List Op → OneShot StopOutcome
  | [] => .empty
  | .register :: _ => .closed
  | .deliver event :: _ => .sent (.stopped (stopInfoFromEvent event))
  | .deliverExit exitCode :: _ => .sent (.exited (some exitCode))
  | .cancel :: _ => .sent .terminated
  | .dropReceiver _ :: rest => fate rest

@[simp] theorem run_append (s : Waiting) (before after : List Op) :
    s.run (before ++ after) = (s.run before).run after := List.foldl_append ..

@[simp] theorem run_cons (s : Waiting) (op : Op) (after : List Op) :
    s.run (op :: after) = (s.apply op).run after := rfl

/-- A producer sends its outcome into the slot, whichever producer it is. -/
private theorem apply_producer {op : Op} {outcome : StopOutcome} (sends : op.outcome = some outcome)
    (s : Waiting) :
    s.apply op = { s with
      shared := { s.shared with stopWaiter := s.shared.stopWaiter.send outcome } } := by
  cases op with
  | deliver event =>
    obtain rfl := Option.some.inj sends
    rfl
  | deliverExit exitCode =>
    obtain rfl := Option.some.inj sends
    rfl
  | cancel =>
    obtain rfl := Option.some.inj sends
    rfl
  | register | dropReceiver waiter => cases sends

/-- What one operation is to the slot: a registration, a send, or nothing. -/
private theorem op_cases (s : Waiting) (op : Op) :
    (op = .register ∧ (s.apply op).shared.stopWaiter = s.shared.stopWaiter.register.2) ∨
    (∃ outcome, op.outcome = some outcome ∧
      (s.apply op).shared.stopWaiter = s.shared.stopWaiter.send outcome) ∨
    (∃ waiter, op = .dropReceiver waiter ∧ (s.apply op).shared = s.shared) := by
  cases op with
  | register => exact .inl ⟨rfl, rfl⟩
  | deliver event => exact .inr (.inl ⟨_, rfl, rfl⟩)
  | deliverExit exitCode => exact .inr (.inl ⟨_, rfl, rfl⟩)
  | cancel => exact .inr (.inl ⟨_, rfl, rfl⟩)
  | dropReceiver waiter =>
    refine .inr (.inr ⟨waiter, rfl, ?_⟩)
    simp only [apply]
    split <;> rfl

private theorem sound_apply {s : Waiting} (sound : s.shared.stopWaiter.Sound) (op : Op) :
    (s.apply op).shared.stopWaiter.Sound := by
  obtain ⟨-, same⟩ | ⟨outcome, -, same⟩ | ⟨waiter, -, same⟩ := op_cases s op
  · rw [same]
    exact sound.register
  · rw [same]
    exact sound.send outcome
  · rw [same]
    exact sound

private theorem sound_run {s : Waiting} (sound : s.shared.stopWaiter.Sound) (ops : List Op) :
    (s.run ops).shared.stopWaiter.Sound := by
  induction ops generalizing s with
  | nil => exact sound
  | cons op ops ih => exact ih (sound_apply sound op)

private theorem next_run (s : Waiting) (ops : List Op) :
    (s.run ops).shared.stopWaiter.next = s.shared.stopWaiter.next + registrations ops := by
  induction ops generalizing s with
  | nil => rfl
  | cons op ops ih =>
    rw [run_cons, ih]
    obtain ⟨rfl, same⟩ | ⟨outcome, sends, same⟩ | ⟨waiter, rfl, same⟩ := op_cases s op
    · rw [same, Slot.register_next, registrations, registrations, List.count_cons_self]
      omega
    · have other : op ≠ .register := by
        rintro rfl
        cases sends
      rw [same, Slot.send_next, registrations, registrations, List.count_cons_of_ne other]
    · rw [same, registrations, registrations, List.count_cons_of_ne (by simp)]

/-- What a receiver has seen it keeps. -/
private theorem settled_apply {s : Waiting} (sound : s.shared.stopWaiter.Sound) {waiter : Nat}
    (old : waiter < s.shared.stopWaiter.next)
    (settled : s.shared.stopWaiter.chan waiter ≠ .empty) (op : Op) :
    waiter < (s.apply op).shared.stopWaiter.next ∧
      (s.apply op).shared.stopWaiter.chan waiter = s.shared.stopWaiter.chan waiter := by
  have free : s.shared.stopWaiter.slot ≠ some waiter :=
    fun here => settled (sound.slot_empty waiter here)
  obtain ⟨-, same⟩ | ⟨outcome, -, same⟩ | ⟨dropped, -, same⟩ := op_cases s op
  · rw [same, Slot.register_next]
    exact ⟨Nat.lt_succ_of_lt old, Slot.register_chan_other (Nat.ne_of_lt old) free⟩
  · rw [same, Slot.send_next]
    exact ⟨old, Slot.send_chan_other outcome free⟩
  · rw [same]
    exact ⟨old, rfl⟩

private theorem settled_run {s : Waiting} (sound : s.shared.stopWaiter.Sound) {waiter : Nat}
    (old : waiter < s.shared.stopWaiter.next)
    (settled : s.shared.stopWaiter.chan waiter ≠ .empty) (ops : List Op) :
    (s.run ops).shared.stopWaiter.chan waiter = s.shared.stopWaiter.chan waiter := by
  induction ops generalizing s with
  | nil => rfl
  | cons op ops ih =>
    obtain ⟨still, same⟩ := settled_apply sound old settled op
    rw [run_cons, ih (sound_apply sound op) still (by rwa [same]), same]

/-- The receiver whose sender is in the slot gets what the first operation decides that is not
a drop. -/
private theorem waiting_fate {s : Waiting} (sound : s.shared.stopWaiter.Sound) {waiter : Nat}
    (waits : s.shared.stopWaiter.slot = some waiter) (ops : List Op) :
    (s.run ops).shared.stopWaiter.chan waiter = fate ops := by
  have old := sound.slot_lt waiter waits
  induction ops generalizing s with
  | nil => exact sound.slot_empty waiter waits
  | cons op ops ih =>
    rw [run_cons]
    obtain ⟨rfl, same⟩ | ⟨outcome, sends, same⟩ | ⟨dropped, rfl, same⟩ := op_cases s op
    · have closed : (s.apply .register).shared.stopWaiter.chan waiter = .closed := by
        rw [same, Slot.register_chan_slot sound waits]
      rw [settled_run (sound_apply sound _) (by rw [same, Slot.register_next]; omega)
        (by rw [closed]; exact fun h => by cases h), closed]
      rfl
    · have sent : (s.apply op).shared.stopWaiter.chan waiter = .sent outcome := by
        rw [same, Slot.send_chan_self outcome waits]
      rw [settled_run (sound_apply sound _) (by rwa [same, Slot.send_next])
        (by rw [sent]; exact fun h => by cases h), sent]
      cases op <;> cases sends <;> rfl
    · exact ih (sound_apply sound _) (by rw [same]; exact waits) (by rw [same]; exact old)

private theorem dropped_run (s : Waiting) (ops : List Op) {waiter : Nat}
    (old : waiter < s.shared.stopWaiter.next) :
    waiter ∈ (s.run ops).dropped ↔ waiter ∈ s.dropped ∨ .dropReceiver waiter ∈ ops := by
  induction ops generalizing s with
  | nil => simp [run]
  | cons op ops ih =>
    rw [run_cons]
    have later : waiter < (s.apply op).shared.stopWaiter.next := by
      obtain ⟨-, same⟩ | ⟨outcome, -, same⟩ | ⟨dropped, -, same⟩ := op_cases s op
      · rw [same, Slot.register_next]
        omega
      · rwa [same, Slot.send_next]
      · rwa [same]
    rw [ih (s.apply op) later]
    cases op with
    | register | deliver event | deliverExit exitCode | cancel => simp [apply]
    | dropReceiver dropped =>
      simp only [apply, List.mem_cons, Op.dropReceiver.injEq]
      split
      · simp [or_assoc]
        tauto
      · rename_i fresh
        have other : waiter ≠ dropped := fun same => fresh (same ▸ old)
        simp [other]

private theorem undropped_new (s : Waiting) (ops : List Op)
    (fresh : ∀ waiter ∈ s.dropped, waiter < s.shared.stopWaiter.next) :
    ∀ waiter ∈ (s.run ops).dropped, waiter < (s.run ops).shared.stopWaiter.next := by
  induction ops generalizing s with
  | nil => exact fresh
  | cons op ops ih =>
    refine ih (s.apply op) ?_
    cases op with
    | register =>
      intro waiter h
      exact Nat.lt_succ_of_lt (fresh waiter h)
    | deliver event | deliverExit exitCode | cancel =>
      intro waiter h
      simpa [apply, Shared.deliver, Shared.deliverExit, Shared.cancel] using fresh waiter h
    | dropReceiver dropped =>
      simp only [apply]
      split
      · rename_i old
        intro waiter h
        rcases Finset.mem_insert.mp h with rfl | h
        · exact old
        · exact fresh waiter h
      · exact fresh

/-- The slot is taken exactly when a registration came after the last producer. -/
private theorem armed_run (ops : List Op) :
    ((new.run ops).shared.stopWaiter.slot).isSome = armed ops := by
  induction ops using List.reverseRecOn with
  | nil => rfl
  | append_singleton ops op ih =>
    rw [run_append, armed, List.foldl_append]
    change ((new.run ops).apply op).shared.stopWaiter.slot.isSome = _
    cases op with
    | register => rfl
    | deliver event | deliverExit exitCode | cancel =>
      exact congrArg Option.isSome (Slot.send_slot _ _)
    | dropReceiver waiter =>
      obtain ⟨h, -⟩ | ⟨outcome, h, -⟩ | ⟨_, -, same⟩ :=
        op_cases (new.run ops) (.dropReceiver waiter)
      · cases h
      · cases h
      · rw [same]
        exact ih

private theorem sound_start (ops : List Op) : (new.run ops).shared.stopWaiter.Sound :=
  sound_run (s := new) Slot.sound_new ops

private theorem next_start (ops : List Op) :
    (new.run ops).shared.stopWaiter.next = registrations ops := by
  rw [next_run]
  exact Nat.zero_add _

private theorem sees_registered (before after : List Op) :
    (new.run (before ++ .register :: after)).sees (registrations before) =
      if .dropReceiver (registrations before) ∈ after then none else some (fate after) := by
  have named := next_start before
  have waits : ((new.run before).apply .register).shared.stopWaiter.slot =
      some (registrations before) := by
    rw [← named]
    rfl
  have old : registrations before < ((new.run before).apply .register).shared.stopWaiter.next := by
    rw [← named]
    exact Nat.lt_succ_self _
  have fresh : registrations before ∉ ((new.run before).apply .register).dropped := by
    intro dropped
    have early := undropped_new new before (fun _ h => by simp [new] at h) _ dropped
    rw [named] at early
    exact Nat.lt_irrefl _ early
  have lost := dropped_run ((new.run before).apply .register) after old
  have seen := waiting_fate (sound_apply (sound_start before) .register) waits after
  rw [run_append, run_cons]
  simp only [sees, lost, fresh, false_or, seen]

/-- Only the receiver whose sender is in the slot is handed anything. -/
private theorem Waiting.Hands.slot {s : Waiting} {op : Op} {waiter : Nat}
    (hands : s.Hands op waiter) : s.shared.stopWaiter.slot = some waiter := by
  obtain ⟨empty, outcome, sent⟩ := hands
  by_contra other
  obtain ⟨-, same⟩ | ⟨v, -, same⟩ | ⟨dropped, -, same⟩ := op_cases s op
  · by_cases new : waiter = s.shared.stopWaiter.next
    · rw [same, new, Slot.register_chan_self] at sent
      cases sent
    · rw [same, Slot.register_chan_other new other, empty] at sent
      cases sent
  · rw [same, Slot.send_chan_other v other, empty] at sent
    cases sent
  · rw [same, empty] at sent
    cases sent

private theorem hands_once {before between : List Op} {op op' : Op} {waiter : Nat}
    (first : (new.run before).Hands op waiter) :
    ¬ (new.run (before ++ op :: between)).Hands op' waiter := by
  intro second
  have sound := sound_start before
  obtain ⟨outcome, sent⟩ := first.2
  have old := sound.slot_lt waiter first.slot
  have still : waiter < ((new.run before).apply op).shared.stopWaiter.next := by
    obtain ⟨-, same⟩ | ⟨v, -, same⟩ | ⟨dropped, -, same⟩ := op_cases (new.run before) op
    · rw [same, Slot.register_next]
      omega
    · rwa [same, Slot.send_next]
    · rwa [same]
  have kept := settled_run (sound_apply sound op) still
    (by rw [sent]; exact fun h => by cases h) between
  have empty := second.1
  rw [run_append, run_cons, kept, sent] at empty
  cases empty

private theorem idle_producer {before : List Op} {op : Op} (sends : op.outcome.isSome)
    (idle : armed before = false) (after : List Op) :
    new.run (before ++ op :: after) = new.run (before ++ after) := by
  obtain ⟨outcome, sends⟩ := Option.isSome_iff_exists.mp sends
  have none : (new.run before).shared.stopWaiter.slot = none := by
    rw [← Option.not_isSome_iff_eq_none, armed_run, idle]
    exact Bool.false_ne_true
  have inert : (new.run before).apply op = new.run before := by
    rw [apply_producer sends, Slot.send_of_none outcome none]
  rw [run_append, run_cons, inert, ← run_append]

/-- Over any sequence of operations: a receiver sees what the operations after its
registration decide; it is handed at most one outcome; no outcome is handed to two; and a
producer with no registration since the last one changes nothing. -/
theorem stop_waiter_law :
    (∀ before after : List Op,
      (new.run (before ++ .register :: after)).sees (registrations before) =
        if .dropReceiver (registrations before) ∈ after then none else some (fate after)) ∧
    (∀ (before between : List Op) (op op' : Op) (waiter : Nat),
      (new.run before).Hands op waiter →
        ¬ (new.run (before ++ op :: between)).Hands op' waiter) ∧
    (∀ (before : List Op) (op : Op) (waiter other : Nat),
      (new.run before).Hands op waiter → (new.run before).Hands op other → waiter = other) ∧
    (∀ (before after : List Op) (op : Op), op.outcome.isSome → armed before = false →
      new.run (before ++ op :: after) = new.run (before ++ after)) := by
  refine ⟨sees_registered, ?_, ?_, ?_⟩
  · intro before between op op' waiter first
    exact hands_once first
  · intro before op waiter other first second
    exact Option.some.inj (first.slot.symm.trans second.slot)
  · intro before after op sends idle
    exact idle_producer sends idle after

/-- A cancel before any registration does not resolve the one after it, whose receiver gets
the exit. -/
theorem stop_waiter_law_exit :
    new.run ([.cancel] ++ [.register, .deliverExit 7, .cancel]) =
        new.run [.register, .deliverExit 7, .cancel] ∧
      (new.run ([.cancel] ++ [.register, .deliverExit 7, .cancel])).sees 0 =
        some (.sent (.exited (some 7))) :=
  ⟨stop_waiter_law.2.2.2 [] [.register, .deliverExit 7, .cancel] .cancel rfl rfl,
    stop_waiter_law.1 [.cancel] [.deliverExit 7, .cancel]⟩

end LldbDebugMcp.Client.StopWaiter
