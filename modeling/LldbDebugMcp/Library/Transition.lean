/- module: LldbDebugMcp/Library/Transition
   source: none (general)
   digest: Runs of a partial step function, steps under a condition, and invariants. -/

import Mathlib.Data.List.Basic

set_option autoImplicit false
set_option relaxedAutoImplicit false

namespace LldbDebugMcp.Library.Transition

universe u v
variable {σ : Type u} {α : Type v}

/-- The actions lead from the first state to the last, and every step that is
taken meets the condition `P` in the state before it. -/
inductive Run (step : σ → α → Option σ) (P : σ → α → Prop) : σ → List α → σ → Prop where
  | nil (s : σ) : Run step P s [] s
  | cons {s t u : σ} {a : α} {as : List α} (allowed : P s a) (taken : step s a = some t)
      (rest : Run step P t as u) : Run step P s (a :: as) u

/-- The condition every step meets. -/
def anyStep : σ → α → Prop := fun _ _ => True

instance (s : σ) (a : α) : Decidable (anyStep s a) := .isTrue trivial

/-- Execute a list of actions, as long as every step meets the condition. -/
def exec (step : σ → α → Option σ) (P : σ → α → Prop) [∀ s a, Decidable (P s a)] :
    σ → List α → Option σ
  | s, [] => some s
  | s, a :: as => if P s a then (step s a).bind fun t => exec step P t as else none

/-- The states some unconditional run reaches. -/
def Reach (step : σ → α → Option σ) (start s : σ) : Prop :=
  ∃ as, Run step anyStep start as s

/-- The property holds in every state of the run. -/
def Throughout (step : σ → α → Option σ) (I : σ → Prop) (s : σ) (as : List α) (t : σ) : Prop :=
  Run step (fun s _ => I s) s as t ∧ I t

variable {step : σ → α → Option σ} {P Q : σ → α → Prop} {s t u : σ} {a : α} {as bs : List α}

theorem Run.single (allowed : P s a) (taken : step s a = some t) : Run step P s [a] t :=
  .cons allowed taken (.nil t)

theorem Run.append (first : Run step P s as t) (second : Run step P t bs u) :
    Run step P s (as ++ bs) u := by
  induction first with
  | nil => exact second
  | cons allowed taken _ ih => exact .cons allowed taken (ih second)

/-- A run over two lists of actions passes through a state between them. -/
theorem Run.split (run : Run step P s (as ++ bs) u) :
    ∃ t, Run step P s as t ∧ Run step P t bs u := by
  induction as generalizing s with
  | nil => exact ⟨s, .nil s, run⟩
  | cons a as ih =>
    cases run with
    | cons allowed taken rest =>
      obtain ⟨t, first, second⟩ := ih rest
      exact ⟨t, .cons allowed taken first, second⟩

/-- The actions determine the last state. -/
theorem Run.last_eq (first : Run step P s as t) (second : Run step Q s as u) : t = u := by
  induction first with
  | nil =>
    cases second
    rfl
  | cons _ taken _ ih =>
    cases second with
    | cons _ taken' rest =>
      obtain rfl := Option.some.inj (taken.symm.trans taken')
      exact ih rest

theorem Run.weaken (imp : ∀ s a, P s a → Q s a) (run : Run step P s as t) :
    Run step Q s as t := by
  induction run with
  | nil s => exact .nil s
  | cons allowed taken _ ih => exact .cons (imp _ _ allowed) taken ih

/-- A run that meets two conditions. -/
theorem Run.both (first : Run step P s as t) (second : Run step Q s as t) :
    Run step (fun s a => P s a ∧ Q s a) s as t := by
  induction first with
  | nil s => exact .nil s
  | cons allowed taken _ ih =>
    cases second with
    | cons allowed' taken' rest =>
      obtain rfl := Option.some.inj (taken.symm.trans taken')
      exact .cons ⟨allowed, allowed'⟩ taken (ih rest)

/-- A condition that the actions themselves meet. -/
theorem Run.restrict (all : ∀ a ∈ as, ∀ s, Q s a) (run : Run step P s as t) :
    Run step Q s as t := by
  induction run with
  | nil s => exact .nil s
  | @cons s _ _ a _ _ taken _ ih =>
    exact .cons (all a (List.mem_cons_self ..) s) taken
      (ih fun b h => all b (List.mem_cons_of_mem a h))

theorem Run.any (run : Run step P s as t) : Run step anyStep s as t :=
  run.weaken fun _ _ _ => trivial

theorem run_of_exec [∀ s a, Decidable (P s a)] (h : exec step P s as = some t) :
    Run step P s as t := by
  induction as generalizing s with
  | nil =>
    obtain rfl := Option.some.inj h
    exact .nil s
  | cons a as ih =>
    simp only [exec] at h
    split at h
    · rename_i allowed
      obtain ⟨m, taken, rest⟩ := Option.bind_eq_some_iff.mp h
      exact .cons allowed taken (ih rest)
    · cases h

/-- What holds at the start and is kept by every step under the condition holds
at the end of every run under the condition. -/
theorem Run.keeps {I : σ → Prop} (keep : ∀ s a t, I s → P s a → step s a = some t → I t)
    (run : Run step P s as t) (start : I s) : I t := by
  induction run with
  | nil => exact start
  | cons allowed taken _ ih => exact ih (keep _ _ _ start allowed taken)

/-- A measure that no step raises, and that the steps of a kind lower, bounds how many of them a
run takes. -/
theorem Run.countP_le (μ : σ → Nat) (own : α → Bool)
    (fall : ∀ s a t, step s a = some t → μ t + (if own a then 1 else 0) ≤ μ s)
    (run : Run step P s as t) : as.countP own + μ t ≤ μ s := by
  induction run with
  | nil s => simp
  | @cons s m t a as _ taken _ ih =>
    have fallen := fall s a m taken
    rw [List.countP_cons]
    omega

/-- A run whose steps meet whatever an invariant makes true of them. -/
theorem Run.strengthen {I : σ → Prop}
    (keep : ∀ s a t, I s → P s a → step s a = some t → I t)
    (grant : ∀ s a t, I s → P s a → step s a = some t → Q s a) (run : Run step P s as t)
    (start : I s) : Run step Q s as t := by
  induction run with
  | nil s => exact .nil s
  | cons allowed taken _ ih =>
    exact .cons (grant _ _ _ start allowed taken) taken (ih (keep _ _ _ start allowed taken))

/-- When a step keeps `I` exactly under the condition `Q`, `I` holds throughout a run exactly
when every step of it meets `Q`. The invariant `J` and the condition `P` of the run may be
used. -/
theorem Run.throughout_iff {I J : σ → Prop}
    (keep : ∀ s a t, J s → P s a → step s a = some t → J t)
    (exact : ∀ s a t, J s → I s → P s a → step s a = some t → (I t ↔ Q s a))
    (run : Run step P s as t) (hJ : J s) (hI : I s) :
    Throughout step I s as t ↔ Run step Q s as t := by
  induction run with
  | nil s => exact ⟨fun _ => .nil s, fun _ => ⟨.nil s, hI⟩⟩
  | @cons s m t a as allowed taken _ ih =>
    have hJ' : J m := keep s a m hJ allowed taken
    constructor
    · rintro ⟨run, last⟩
      cases run with
      | cons _ taken' rest =>
        obtain rfl := Option.some.inj (taken.symm.trans taken')
        have mid : I m := by
          cases rest with
          | nil => exact last
          | cons hm _ _ => exact hm
        exact .cons ((exact s a m hJ hI allowed taken).mp mid) taken
          ((ih hJ' mid).mp ⟨rest, last⟩)
    · intro run
      cases run with
      | cons hQ taken' rest =>
        obtain rfl := Option.some.inj (taken.symm.trans taken')
        have mid := (exact s a m hJ hI allowed taken).mpr hQ
        obtain ⟨run, last⟩ := (ih hJ' mid).mpr rest
        exact ⟨.cons hI taken run, last⟩

/-- The invariant rule for properties that look back on the run. -/
theorem Run.keeps_history {I : List α → σ → Prop}
    (keep : ∀ as s a t, Run step P u as s → I as s → P s a → step s a = some t → I (as ++ [a]) t)
    (run : Run step P u as t) (start : I [] u) : I as t := by
  have all : ∀ before m, Run step P u before m → I before m → ∀ as t, Run step P m as t →
      I (before ++ as) t := by
    intro before m first here as t rest
    induction rest generalizing before with
    | nil => simpa using here
    | @cons m n _ a as allowed taken _ ih =>
      have next := ih (before ++ [a]) (first.append (.single allowed taken))
        (keep before m a n first here allowed taken)
      simpa using next
  simpa using all [] u (.nil u) start as t run

/-- What the steps of a run put out, in order, when `f` says what a single step does. -/
def emits {β : Type v} (step : σ → α → Option σ) (f : σ → α → List β) : σ → List α → List β
  | _, [] => []
  | s, a :: as => f s a ++ ((step s a).map fun t => emits step f t as).getD []

@[simp] theorem emits_nil {β : Type v} (f : σ → α → List β) (s : σ) : emits step f s [] = [] := rfl

theorem Run.emits_append {β : Type v} {f : σ → α → List β} (run : Run step P s as t)
    (bs : List α) : emits step f s (as ++ bs) = emits step f s as ++ emits step f t bs := by
  induction run with
  | nil => rfl
  | cons _ taken _ ih => simp only [List.cons_append, emits, taken, Option.map_some,
      Option.getD_some,
      ih, List.append_assoc]

/-- One more step. -/
theorem Run.emits_concat {β : Type v} {f : σ → α → List β} (run : Run step P s as t) (a : α) :
    emits step f s (as ++ [a]) = emits step f s as ++ f t a := by
  rw [run.emits_append]
  simp only [emits]
  cases step t a <;> simp

theorem Reach.start (s : σ) : Reach step s s := ⟨[], .nil s⟩

theorem Reach.run (reach : Reach step s t) (run : Run step P t as u) : Reach step s u := by
  obtain ⟨bs, first⟩ := reach
  exact ⟨bs ++ as, first.append run.any⟩

theorem Reach.next (reach : Reach step s t) (taken : step t a = some u) : Reach step s u :=
  reach.run (Run.single (P := anyStep) trivial taken)

theorem reach_of_exec (h : exec step anyStep s as = some t) : Reach step s t :=
  ⟨as, run_of_exec h⟩

/-- The invariant rule for unconditional runs. -/
theorem Reach.keeps {I : σ → Prop} (keep : ∀ s a t, I s → step s a = some t → I t)
    (reach : Reach step s t) (start : I s) : I t := by
  obtain ⟨as, run⟩ := reach
  exact run.keeps (fun s a t hs _ taken => keep s a t hs taken) start

end LldbDebugMcp.Library.Transition
