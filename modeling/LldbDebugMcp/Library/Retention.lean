/- module: LldbDebugMcp/Library/Retention
   source: none (general)
   digest: The longest end of a history within a cap, and cuts of a list that may be out of
   range. -/

import Mathlib.Algebra.GroupWithZero.Nat
import Mathlib.Data.List.DropRight

set_option autoImplicit false
set_option relaxedAutoImplicit false

namespace LldbDebugMcp.Library.Retention

universe u
variable {α : Type u} {weight : α → Nat} {cap : Nat} {history kept more : List α}

/-- A subtraction that stops the program below zero. -/
def checkedSub (a b : Nat) : Option Nat := if b ≤ a then some (a - b) else none

/-- The slice `xs[i..]`, which stops the program past the end. -/
def sliceFrom (xs : List α) (i : Nat) : Option (List α) :=
  if i ≤ xs.length then some (xs.drop i) else none

theorem checkedSub_of_le {a b : Nat} (le : b ≤ a) : checkedSub a b = some (a - b) := if_pos le

theorem sliceFrom_of_le {xs : List α} {i : Nat} (le : i ≤ xs.length) :
    sliceFrom xs i = some (xs.drop i) := if_pos le

/-- The weight of all entries. -/
def total (weight : α → Nat) (xs : List α) : Nat := (xs.map weight).sum

@[simp] theorem total_nil : total weight [] = 0 := rfl

@[simp] theorem total_cons (x : α) (xs : List α) :
    total weight (x :: xs) = weight x + total weight xs := by
  simp [total]

@[simp] theorem total_append (xs ys : List α) :
    total weight (xs ++ ys) = total weight xs + total weight ys := by
  simp [total]

theorem total_one (xs : List α) : total (fun _ => 1) xs = xs.length := by
  simp [total]

/-- What is kept is the longest end of the history that the cap allows. -/
structure Longest (weight : α → Nat) (cap : Nat) (history kept : List α) : Prop where
  suffix : kept <:+ history
  within : total weight kept ≤ cap
  longest : ∀ other, other <:+ history → total weight other ≤ cap → other <:+ kept

namespace Longest

theorem whole (fits : total weight history ≤ cap) : Longest weight cap history history :=
  ⟨List.suffix_refl _, fits, fun _ suffix _ => suffix⟩

theorem nil : Longest weight cap [] [] := whole (Nat.zero_le cap)

theorem unique {other : List α} (left : Longest weight cap history kept)
    (right : Longest weight cap history other) : kept = other := by
  have short := right.longest kept left.suffix left.within
  exact short.eq_of_length_le (left.longest other right.suffix right.within).length_le

/-- An oldest entry that does not fit is never kept. -/
theorem cons_of_not_fits {x : α} (over_cap : cap < weight x + total weight history)
    (kept_longest : Longest weight cap history kept) :
    Longest weight cap (x :: history) kept where
  suffix := kept_longest.suffix.trans (List.suffix_cons x history)
  within := kept_longest.within
  longest := by
    intro other suffix fits
    rcases List.suffix_cons_iff.mp suffix with rfl | suffix
    · rw [total_cons] at fits
      omega
    · exact kept_longest.longest other suffix fits

/-- What was dropped before is not missed: of what was kept and what is new, the longest end
is the longest end of the whole history. -/
theorem append {after : List α} (before : Longest weight cap history kept)
    (now : Longest weight cap (kept ++ more) after) :
    Longest weight cap (history ++ more) after where
  suffix := now.suffix.trans (List.suffix_append_self_iff.mpr before.suffix)
  within := now.within
  longest := by
    intro other suffix fits
    refine now.longest other ?_ fits
    rcases List.suffix_or_suffix_of_suffix suffix (List.suffix_append history more) with
      short | ⟨front, rfl⟩
    · exact List.suffix_append_of_suffix short
    · have front_fits : total weight front ≤ cap := by
        rw [total_append] at fits
        omega
      have old : front <:+ history := List.suffix_append_self_iff.mp suffix
      exact List.suffix_append_self_iff.mpr (before.longest front old front_fits)

/-- With all weights one, the last entries are kept. -/
theorem rtake (xs : List α) (n : Nat) : Longest (fun _ => 1) n xs (xs.rtake n) where
  suffix := List.drop_suffix ..
  within := by
    rw [total_one, List.rtake, List.length_drop]
    omega
  longest := by
    intro other suffix fits
    rw [total_one] at fits
    refine List.suffix_of_suffix_length_le suffix (List.drop_suffix ..) ?_
    have short := suffix.length_le
    rw [List.rtake, List.length_drop]
    omega

end Longest

end LldbDebugMcp.Library.Retention
