/- module: LldbDebugMcp/Library/Custody
   source: none (general)
   digest: Keys of a table and the parties that hold them, and when no key is left behind. -/

import Mathlib.Tactic.ByContra

set_option autoImplicit false
set_option relaxedAutoImplicit false

namespace LldbDebugMcp.Library.Custody

universe u v
variable {ι : Type u} {κ : Type v}

/-- The keys that are pending in a table, and which party holds which key. -/
structure Keys (ι : Type u) (κ : Type v) where
  pending : κ → Prop
  holds : ι → κ → Prop

namespace Keys

/-- Every pending key has a holder. -/
def Owned (c : Keys ι κ) : Prop := ∀ k, c.pending k → ∃ i, c.holds i k

/-- No key has two holders. -/
def Sole (c : Keys ι κ) : Prop := ∀ i j k, c.holds i k → c.holds j k → i = j

/-- Keys are settled, and a party lets go of settled keys only. -/
structure GoesOn (c c' : Keys ι κ) : Prop where
  pending : ∀ k, c'.pending k → c.pending k
  holds : ∀ i k, c'.holds i k → c.holds i k
  kept : ∀ i k, c.holds i k → c'.pending k → c'.holds i k

/-- A party takes a key that nobody holds. -/
structure Takes (i : ι) (k : κ) (c c' : Keys ι κ) : Prop where
  fresh : ∀ j, ¬ c.holds j k
  pending : ∀ x, c'.pending x → c.pending x ∨ x = k
  holds : ∀ j x, c'.holds j x ↔ c.holds j x ∨ (j = i ∧ x = k)

/-- A party is gone, and the key that its guard names is removed. -/
structure Ends (i : ι) (guard : Option κ) (c c' : Keys ι κ) : Prop where
  pending : ∀ k, c'.pending k ↔ c.pending k ∧ guard ≠ some k
  gone : ∀ k, ¬ c'.holds i k
  others : ∀ j k, j ≠ i → (c'.holds j k ↔ c.holds j k)

/-- The keys of one party change, and those of the others do not. -/
structure Changes (i : ι) (mine : κ → Prop) (c c' : Keys ι κ) : Prop where
  own : ∀ k, c'.holds i k ↔ mine k
  others : ∀ j k, j ≠ i → (c'.holds j k ↔ c.holds j k)

variable {c c' : Keys ι κ} {i : ι} {k : κ} {guard : Option κ} {mine : κ → Prop}

theorem Changes.goesOn (changes : Changes i mine c c')
    (pending : ∀ k, c'.pending k → c.pending k) (fewer : ∀ k, mine k → c.holds i k)
    (kept : ∀ k, c.holds i k → c'.pending k → mine k) : GoesOn c c' where
  pending := pending
  holds j k := by
    intro holds
    by_cases same : j = i
    · subst same
      exact fewer k ((changes.own k).mp holds)
    · exact (changes.others j k same).mp holds
  kept j k := by
    intro holds there
    by_cases same : j = i
    · subst same
      exact (changes.own k).mpr (kept k holds there)
    · exact (changes.others j k same).mpr holds

theorem Changes.takes (changes : Changes i mine c c') (fresh : ∀ j, ¬ c.holds j k)
    (pending : ∀ x, c'.pending x → c.pending x ∨ x = k)
    (more : ∀ x, mine x ↔ c.holds i x ∨ x = k) : Takes i k c c' where
  fresh := fresh
  pending := pending
  holds j x := by
    by_cases same : j = i
    · subst same
      rw [changes.own, more]
      exact ⟨fun h => h.imp_right fun new => ⟨rfl, new⟩, fun h => h.imp_right And.right⟩
    · rw [changes.others j x same]
      exact ⟨.inl, fun h => h.resolve_right fun new => same new.1⟩

theorem Changes.ends (changes : Changes i (fun _ => False) c c')
    (pending : ∀ k, c'.pending k ↔ c.pending k ∧ guard ≠ some k) : Ends i guard c c' where
  pending := pending
  gone k := (changes.own k).mp
  others := changes.others

theorem GoesOn.refl (c : Keys ι κ) : GoesOn c c :=
  ⟨fun _ h => h, fun _ _ h => h, fun _ _ h _ => h⟩

theorem Sole.goesOn (sole : c.Sole) (step : GoesOn c c') : c'.Sole := fun i j k mine other =>
  sole i j k (step.holds i k mine) (step.holds j k other)

theorem Sole.takes (sole : c.Sole) (step : Takes i k c c') : c'.Sole := by
  intro j j' x mine other
  rcases (step.holds j x).mp mine with old | ⟨rfl, rfl⟩
  · rcases (step.holds j' x).mp other with old' | ⟨-, rfl⟩
    · exact sole j j' x old old'
    · exact absurd old (step.fresh j)
  · rcases (step.holds j' x).mp other with old' | ⟨rfl, -⟩
    · exact absurd old' (step.fresh j')
    · rfl

theorem Sole.ends (sole : c.Sole) (step : Ends i guard c c') : c'.Sole := by
  have old : ∀ j x, c'.holds j x → c.holds j x := by
    intro j x mine
    by_cases same : j = i
    · subst same
      exact absurd mine (step.gone x)
    · exact (step.others j x same).mp mine
  exact fun j j' x mine other => sole j j' x (old j x mine) (old j' x other)

theorem Owned.goesOn (owned : c.Owned) (step : GoesOn c c') : c'.Owned := by
  intro k here
  obtain ⟨i, holds⟩ := owned k (step.pending k here)
  exact ⟨i, step.kept i k holds here⟩

theorem Owned.takes (owned : c.Owned) (step : Takes i k c c') : c'.Owned := by
  intro x here
  rcases step.pending x here with old | rfl
  · obtain ⟨j, holds⟩ := owned x old
    exact ⟨j, (step.holds j x).mpr (.inl holds)⟩
  · exact ⟨i, (step.holds i x).mpr (.inr ⟨rfl, rfl⟩)⟩

/-- A party that goes leaves no key behind exactly when the pending keys that it holds are the
one its guard removes. -/
theorem Owned.ends_iff (owned : c.Owned) (sole : c.Sole) (step : Ends i guard c c') :
    c'.Owned ↔ ∀ k, c.pending k → c.holds i k → guard = some k := by
  constructor
  · intro after k here mine
    by_contra unguarded
    obtain ⟨j, holds⟩ := after k ((step.pending k).mpr ⟨here, unguarded⟩)
    have other : j ≠ i := by
      rintro rfl
      exact step.gone k holds
    exact other (sole j i k ((step.others j k other).mp holds) mine)
  · intro guarded k there
    obtain ⟨here, kept⟩ := (step.pending k).mp there
    obtain ⟨j, holds⟩ := owned k here
    have other : j ≠ i := by
      rintro rfl
      exact kept (guarded k here holds)
    exact ⟨j, (step.others j k other).mpr holds⟩

end Keys

end LldbDebugMcp.Library.Custody
