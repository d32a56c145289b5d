/- module: LldbDebugMcp/Library/Effect
   source: none (general)
   digest: Programs as trees of operations, and a rule for what every path through one does. -/

import Mathlib.Logic.Basic

set_option autoImplicit false
set_option relaxedAutoImplicit false

namespace LldbDebugMcp.Library.Effect

/-- A program over the operations `ι`: it is done, or it performs an operation and
continues with whatever the operation results in. -/
inductive Program (ι : Type) (ρ : ι → Type) (α : Type) where
  | done (value : α)
  | op (i : ι) (next : ρ i → Program ι ρ α)

namespace Program

variable {ι : Type} {ρ : ι → Type} {α β γ : Type}

def bind : Program ι ρ α → (α → Program ι ρ β) → Program ι ρ β
  | .done value, f => f value
  | .op i next, f => .op i fun r => (next r).bind f

/-- One operation. -/
def perform (i : ι) : Program ι ρ (ρ i) := .op i .done

instance : Monad (Program ι ρ) where
  pure := .done
  bind := .bind

/-- The value of a program when every operation results in what `answer` says. -/
def eval (answer : (i : ι) → ρ i) : Program ι ρ α → α
  | .done value => value
  | .op i next => (next (answer i)).eval answer

@[simp] theorem eval_done (answer : (i : ι) → ρ i) (value : α) :
    (.done value : Program ι ρ α).eval answer = value := rfl

@[simp] theorem eval_perform (answer : (i : ι) → ρ i) (i : ι) :
    (perform i : Program ι ρ (ρ i)).eval answer = answer i := rfl

@[simp] theorem eval_bind (answer : (i : ι) → ρ i) (p : Program ι ρ β)
    (f : β → Program ι ρ α) : (p.bind f).eval answer = (f (p.eval answer)).eval answer := by
  induction p with
  | done value => rfl
  | op i next ih => exact ih (answer i)

/-- Some path of the program performs the operation. -/
def Uses (i : ι) : Program ι ρ α → Prop
  | .done _ => False
  | .op j next => j = i ∨ ∃ r, (next r).Uses i

/-- The value depends on the operations that the program uses alone. -/
theorem eval_congr {p : Program ι ρ α} {answer answer' : (i : ι) → ρ i}
    (same : ∀ i, p.Uses i → answer' i = answer i) : p.eval answer' = p.eval answer := by
  induction p with
  | done value => rfl
  | op j next ih =>
    rw [eval, eval, same j (.inl rfl)]
    exact ih (answer j) fun i uses => same i (.inr ⟨answer j, uses⟩)

/-- These results take the program to what is left of it. -/
inductive Leads (p : Program ι ρ α) : List ((i : ι) × ρ i) → Program ι ρ α → Prop where
  | start : Leads p [] p
  | next {log : List ((i : ι) × ρ i)} {i : ι} {rest : ρ i → Program ι ρ α}
      (before : Leads p log (.op i rest)) (r : ρ i) : Leads p (log ++ [⟨i, r⟩]) (rest r)

/-- The answers are the results of the log. -/
def Agree (answer : (i : ι) → ρ i) (log : List ((i : ι) × ρ i)) : Prop :=
  ∀ e ∈ log, answer e.1 = e.2

/-- What is left of a program comes to its value, under answers that agree with its past. -/
theorem Leads.eval {p rest : Program ι ρ α} {log : List ((i : ι) × ρ i)}
    {answer : (i : ι) → ρ i} (leads : Leads p log rest) (agree : Agree answer log) :
    rest.eval answer = p.eval answer := by
  induction leads with
  | start => rfl
  | @next log i rest before r ih =>
    have now : answer i = r := agree ⟨i, r⟩ (List.mem_append_right _ (List.mem_singleton.mpr rfl))
    rw [← ih fun e mem => agree e (List.mem_append_left _ mem), Program.eval, now]

/-- Every path from the ghost state `g` performs only operations that `ok` allows,
moves the ghost state by `after`, and ends in a value that `post` accepts. -/
def Safe (ok : γ → ι → Prop) (after : γ → (i : ι) → ρ i → γ) (post : γ → α → Prop) :
    γ → Program ι ρ α → Prop
  | g, .done value => post g value
  | g, .op i next => ok g i ∧ ∀ r, Safe ok after post (after g i r) (next r)

variable {ok : γ → ι → Prop} {after : γ → (i : ι) → ρ i → γ}
  {post : γ → α → Prop} {mid : γ → β → Prop} {g : γ}

@[simp] theorem safe_done {value : α} :
    Safe ok after post g (.done value : Program ι ρ α) ↔ post g value := Iff.rfl

@[simp] theorem safe_op {i : ι} {next : ρ i → Program ι ρ α} :
    Safe ok after post g (.op i next) ↔
      ok g i ∧ ∀ r, Safe ok after post (after g i r) (next r) := Iff.rfl

/-- The rule for sequential composition. -/
theorem Safe.bind {p : Program ι ρ β} {f : β → Program ι ρ α} (first : Safe ok after mid g p)
    (rest : ∀ g value, mid g value → Safe ok after post g (f value)) :
    Safe ok after post g (p.bind f) := by
  induction p generalizing g with
  | done value => exact rest g value first
  | op i next ih => exact ⟨first.1, fun r => ih r (first.2 r)⟩

/-- A program of which nothing is asked. -/
theorem safe_any (p : Program ι ρ α) :
    Safe (fun _ _ => True) after (fun _ _ => True) g p := by
  induction p generalizing g with
  | done value => trivial
  | op i next ih => exact ⟨trivial, fun r => ih r⟩

theorem Safe.mono {post' : γ → α → Prop} {p : Program ι ρ α} (safe : Safe ok after post g p)
    (imp : ∀ g value, post g value → post' g value) : Safe ok after post' g p := by
  induction p generalizing g with
  | done value => exact imp g value safe
  | op i next ih => exact ⟨safe.1, fun r => ih r (safe.2 r)⟩

section

variable {ε : Type} {raise : γ → ε → Prop} {post : γ → α → Prop}

/-- A value that `post` accepts, or an error that `raise` accepts. -/
def onResult (raise : γ → ε → Prop) (post : γ → α → Prop) : γ → Except ε α → Prop
  | g, .ok value => post g value
  | g, .error e => raise g e

/-- `Safe` for a program that may fail. -/
def Yields (ok : γ → ι → Prop) (after : γ → (i : ι) → ρ i → γ) (raise : γ → ε → Prop)
    (post : γ → α → Prop) (g : γ) (x : ExceptT ε (Program ι ρ) α) : Prop :=
  Safe ok after (onResult raise post) g x.run

/-- A program that cannot fail. -/
theorem yields_lift {p : Program ι ρ α} (safe : Safe ok after post g p) :
    Yields ok after raise post g (liftM p : ExceptT ε (Program ι ρ) α) :=
  safe.bind fun _ _ h => h

/-- The rule for sequential composition with failures. -/
theorem Yields.bind {mid : γ → β → Prop} {x : ExceptT ε (Program ι ρ) β}
    {f : β → ExceptT ε (Program ι ρ) α} (first : Yields ok after raise mid g x)
    (rest : ∀ g value, mid g value → Yields ok after raise post g (f value)) :
    Yields ok after raise post g (x >>= f) := by
  refine Safe.bind first fun g r h => ?_
  cases r with
  | ok value => exact rest g value h
  | error e => exact h

end

end Program

end LldbDebugMcp.Library.Effect
