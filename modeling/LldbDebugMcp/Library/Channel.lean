/- module: LldbDebugMcp/Library/Channel
   source: none (general)
   digest: One-shot channels and a slot that holds the sender of at most one of them. -/

import Mathlib.Logic.Function.Basic

set_option autoImplicit false
set_option relaxedAutoImplicit false

namespace LldbDebugMcp.Library.Channel

universe u
variable {α : Type u}

/-- What the receiver of a one-shot channel sees: nothing yet, the single value,
or that the sender is gone. -/
inductive OneShot (α : Type u) where
  | empty
  | sent (value : α)
  | closed
  deriving DecidableEq, Repr

/-- What awaiting the receiver yields: nothing so far, or the outcome, which is no value
when the sender is gone. -/
def OneShot.poll : OneShot α → Option (Option α)
  | .empty => none
  | .sent value => some (some value)
  | .closed => some none

/-- A slot for the sender of one channel. Channels are named by the order of their
registration, and `chan` is what each receiver sees. -/
structure Slot (α : Type u) where
  slot : Option Nat
  next : Nat
  chan : Nat → OneShot α

namespace Slot

/-- No registration yet. -/
def new : Slot α := ⟨none, 0, fun _ => .empty⟩

/-- Drop the sender that the slot holds: its receiver sees a closed channel. -/
def dropSender (s : Slot α) : Nat → OneShot α :=
  match s.slot with
  | none => s.chan
  | some w => Function.update s.chan w .closed

/-- Make a fresh channel and put its sender in the slot. -/
def register (s : Slot α) : Nat × Slot α :=
  (s.next, ⟨some s.next, s.next + 1, Function.update s.dropSender s.next .empty⟩)

/-- Take the sender out of the slot, if there is one, and send. -/
def send (s : Slot α) (value : α) : Slot α :=
  match s.slot with
  | none => s
  | some w => { s with slot := none, chan := Function.update s.chan w (.sent value) }

/-- The sender in the slot is one of an earlier registration and is unused, and no other
receiver still waits. -/
structure Sound (s : Slot α) : Prop where
  slot_lt : ∀ w, s.slot = some w → w < s.next
  slot_empty : ∀ w, s.slot = some w → s.chan w = .empty
  settled : ∀ w, w < s.next → s.slot ≠ some w → s.chan w ≠ .empty

theorem sound_new : (new : Slot α).Sound :=
  ⟨fun _ h => by simp [new] at h, fun _ h => by simp [new] at h,
    fun _ h => absurd h (Nat.not_lt_zero _)⟩

@[simp] theorem register_name (s : Slot α) : s.register.1 = s.next := rfl
@[simp] theorem register_slot (s : Slot α) : s.register.2.slot = some s.next := rfl
@[simp] theorem register_next (s : Slot α) : s.register.2.next = s.next + 1 := rfl

@[simp] theorem send_next (s : Slot α) (v : α) : (s.send v).next = s.next := by
  unfold send
  split <;> rfl

@[simp] theorem send_slot (s : Slot α) (v : α) : (s.send v).slot = none := by
  unfold send
  split
  · assumption
  · rfl

theorem send_of_none {s : Slot α} (v : α) (h : s.slot = none) : s.send v = s := by
  simp only [send, h]

theorem send_chan_of_some {s : Slot α} (v : α) {w : Nat} (h : s.slot = some w) :
    (s.send v).chan = Function.update s.chan w (.sent v) := by
  simp only [send, h]

theorem send_chan_self {s : Slot α} (v : α) {w : Nat} (h : s.slot = some w) :
    (s.send v).chan w = .sent v := by
  rw [send_chan_of_some v h, Function.update_self]

/-- A send touches no channel but the one in the slot. -/
theorem send_chan_other {s : Slot α} (v : α) {w : Nat} (h : s.slot ≠ some w) :
    (s.send v).chan w = s.chan w := by
  cases hs : s.slot with
  | none => rw [send_of_none v hs]
  | some x =>
    have hne : w ≠ x := by
      rintro rfl
      exact h hs
    rw [send_chan_of_some v hs, Function.update_of_ne hne]

/-- A send closes no channel. -/
theorem not_closed_send {s : Slot α} (v : α) {w : Nat} (h : s.chan w ≠ .closed) :
    (s.send v).chan w ≠ .closed := by
  by_cases mine : s.slot = some w
  · rw [send_chan_self v mine]
    exact fun h => by cases h
  · rwa [send_chan_other v mine]

theorem register_chan_self (s : Slot α) : s.register.2.chan s.next = .empty := by
  simp [register]

/-- A registration closes the channel that was in the slot and no other. -/
theorem register_chan_other {s : Slot α} {w : Nat} (hnew : w ≠ s.next)
    (h : s.slot ≠ some w) : s.register.2.chan w = s.chan w := by
  simp only [register, Function.update_of_ne hnew]
  cases hs : s.slot with
  | none => simp only [dropSender, hs]
  | some x =>
    have hne : w ≠ x := by
      rintro rfl
      exact h hs
    simp only [dropSender, hs, Function.update_of_ne hne]

theorem register_chan_slot {s : Slot α} (sound : s.Sound) {w : Nat} (h : s.slot = some w) :
    s.register.2.chan w = .closed := by
  have hne : w ≠ s.next := Nat.ne_of_lt (sound.slot_lt w h)
  simp only [register, Function.update_of_ne hne, dropSender, h, Function.update_self]

theorem Sound.register {s : Slot α} (sound : s.Sound) : s.register.2.Sound where
  slot_lt w h := by
    obtain rfl := Option.some.inj h
    exact Nat.lt_succ_self _
  slot_empty w h := by
    obtain rfl := Option.some.inj h
    exact register_chan_self s
  settled w h hs := by
    have hne : w ≠ s.next := by
      rintro rfl
      exact hs rfl
    have hlt : w < s.next := by
      rw [register_next] at h
      omega
    by_cases old : s.slot = some w
    · rw [register_chan_slot sound old]
      exact fun h => by cases h
    · rw [register_chan_other hne old]
      exact sound.settled w hlt old

theorem Sound.send {s : Slot α} (sound : s.Sound) (v : α) : (s.send v).Sound where
  slot_lt w h := by simp at h
  slot_empty w h := by simp at h
  settled w h _ := by
    rw [send_next] at h
    by_cases old : s.slot = some w
    · rw [send_chan_self v old]
      exact fun h => by cases h
    · rw [send_chan_other v old]
      exact sound.settled w h old

end Slot

end LldbDebugMcp.Library.Channel
