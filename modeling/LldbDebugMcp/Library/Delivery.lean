/- module: LldbDebugMcp/Library/Delivery
   source: none (general)
   digest: What the channels of a slot have been sent, and that no receiver is sent more. -/

import Mathlib.Data.List.Perm.Subperm
import LldbDebugMcp.Library.Channel

set_option autoImplicit false
set_option relaxedAutoImplicit false

namespace LldbDebugMcp.Library.Delivery

open LldbDebugMcp.Library.Channel

universe u
variable {α : Type u}

/-- What the receiver of a channel gets. -/
def received : OneShot α → Option α
  | .sent value => some value
  | .empty | .closed => none

/-- What the channels of a slot have been sent, in the order of their registration. -/
def delivered (s : Slot α) : List α := (List.range s.next).filterMap fun w => received (s.chan w)

variable {s : Slot α} {v : α} {w : Nat}

@[simp] theorem delivered_new : delivered (Slot.new : Slot α) = [] := rfl

/-- One receiver more that gets something. -/
private theorem filterMap_perm {f g : Nat → Option α} {l : List Nat} (nodup : l.Nodup)
    (mem : w ∈ l) (idle : f w = none) (now : g w = some v) (same : ∀ x, x ≠ w → g x = f x) :
    (l.filterMap g).Perm (v :: l.filterMap f) := by
  induction l with
  | nil => cases mem
  | cons x l ih =>
    obtain ⟨fresh, nodup⟩ := List.nodup_cons.mp nodup
    by_cases here : x = w
    · subst here
      have rest : l.filterMap g = l.filterMap f :=
        List.filterMap_congr fun y hy => same y fun eq => fresh (eq ▸ hy)
      rw [List.filterMap_cons_some now, List.filterMap_cons_none idle, rest]
    · have later : w ∈ l := (List.mem_cons.mp mem).resolve_left (Ne.symm here)
      cases got : f x with
      | none =>
        rw [List.filterMap_cons_none ((same x here).trans got), List.filterMap_cons_none got]
        exact ih nodup later
      | some value =>
        rw [List.filterMap_cons_some ((same x here).trans got), List.filterMap_cons_some got]
        exact ((ih nodup later).cons value).trans (.swap ..)

/-- A registration delivers nothing, and takes nothing back. -/
theorem delivered_register (sound : s.Sound) : delivered s.register.2 = delivered s := by
  have fresh : received (s.register.2.chan s.next) = none := by
    rw [Slot.register_chan_self]
    rfl
  have old : ∀ w ∈ List.range s.next,
      received (s.register.2.chan w) = received (s.chan w) := by
    intro w mem
    by_cases slot : s.slot = some w
    · rw [Slot.register_chan_slot sound slot, sound.slot_empty w slot]
      rfl
    · rw [Slot.register_chan_other (Nat.ne_of_lt (List.mem_range.mp mem)) slot]
  unfold delivered
  rw [Slot.register_next, List.range_succ, List.filterMap_append, List.filterMap_congr old]
  simp [fresh]

/-- A send delivers its value, to a receiver that had got nothing. -/
theorem delivered_send (sound : s.Sound) (slot : s.slot = some w) :
    (delivered (s.send v)).Perm (v :: delivered s) := by
  unfold delivered
  rw [Slot.send_next]
  refine filterMap_perm List.nodup_range (List.mem_range.mpr (sound.slot_lt w slot)) ?_ ?_ ?_
  · rw [sound.slot_empty w slot]
    rfl
  · rw [Slot.send_chan_self v slot]
    rfl
  · intro x other
    rw [Slot.send_chan_other v fun eq => other (Option.some.inj (eq.symm.trans slot))]

/-- Without a receiver the value is lost. -/
theorem delivered_send_subperm (sound : s.Sound) :
    (delivered (s.send v)).Subperm (v :: delivered s) := by
  cases slot : s.slot with
  | none =>
    rw [Slot.send_of_none v slot]
    exact .cons_self
  | some w => exact (delivered_send sound slot).subperm

/-- What different receivers have got was delivered, and no part of it twice. -/
theorem subperm_delivered {taken : List (Nat × α)} (once : (taken.map Prod.fst).Nodup)
    (sent : ∀ e ∈ taken, e.1 < s.next ∧ s.chan e.1 = .sent e.2) :
    (taken.map Prod.snd).Subperm (delivered s) := by
  have known : (taken.map Prod.fst).Subperm (List.range s.next) := once.subperm fun w mem => by
    obtain ⟨e, he, rfl⟩ := List.mem_map.mp mem
    exact List.mem_range.mpr (sent e he).1
  have values : taken.map Prod.snd =
      (taken.map Prod.fst).filterMap fun w => received (s.chan w) := by
    rw [List.filterMap_map, ← List.filterMap_eq_map]
    refine List.filterMap_congr fun e he => ?_
    simp [(sent e he).2, received]
  obtain ⟨l, perm, sub⟩ := known
  rw [values]
  exact ⟨_, perm.filterMap _, sub.filterMap _⟩

end LldbDebugMcp.Library.Delivery
