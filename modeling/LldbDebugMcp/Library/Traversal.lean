/- module: LldbDebugMcp/Library/Traversal
   source: none (general)
   digest: Traversals that fetch as they go and stop at a cap: the part of a trace that is done. -/

import Mathlib.Data.List.Basic

set_option autoImplicit false
set_option relaxedAutoImplicit false

namespace LldbDebugMcp.Library.Traversal

/-- What an uncapped traversal would do next: fetch, under so many open calls, or put out an
entry. A fetch may fail. -/
inductive Event (ρ ε α : Type) where
  | fetch (ref : ρ) (level : Nat) (failed : Option ε)
  | entry (a : α)

/-- What has been done: the entries, and the fetches, each with the calls that were open. -/
structure Progress (ρ α : Type) where
  result : List α
  fetched : List (ρ × Nat)

variable {ρ ε α : Type}

def Progress.new : Progress ρ α := ⟨[], []⟩

/-- A capped traversal: whether the cap was hit, or the error of a fetch. -/
abbrev Walk (ρ ε α : Type) := EStateM ε (Progress ρ α)

/-- Put out an entry, and say whether that reaches the cap. -/
def push (max : Nat) (a : α) : Walk ρ ε α Bool := fun p =>
  .ok (decide (max ≤ p.result.length + 1)) { p with result := p.result ++ [a] }

/-- Note a fetch, and fail when it does. -/
def note (ref : ρ) (level : Nat) (failed : Option ε) : Walk ρ ε α Unit := fun p =>
  let p := { p with fetched := p.fetched ++ [(ref, level)] }
  match failed with
  | none => .ok () p
  | some e => .error e p

/-- Go on unless the cap was hit. -/
def andThen (first rest : Walk ρ ε α Bool) : Walk ρ ε α Bool := do
  if ← first then return true
  rest

/-- Do the events of a trace, up to the cap or the first failure. -/
def follow (max : Nat) : List (Event ρ ε α) → Walk ρ ε α Bool
  | [] => return false
  | .fetch ref level failed :: events => do
    note ref level failed
    follow max events
  | .entry a :: events => andThen (push max a) (follow max events)

/-- The entries of a trace. -/
def entries : List (Event ρ ε α) → List α
  | [] => []
  | .fetch .. :: events => entries events
  | .entry a :: events => a :: entries events

/-- The fetches of a trace. -/
def fetches : List (Event ρ ε α) → List (ρ × Nat)
  | [] => []
  | .fetch ref level _ :: events => (ref, level) :: fetches events
  | .entry _ :: events => fetches events

/-- The error of the first fetch that fails. -/
def failure : List (Event ρ ε α) → Option ε
  | [] => none
  | .fetch _ _ (some e) :: _ => some e
  | .fetch _ _ none :: events | .entry _ :: events => failure events

/-- The part of a trace that is done when `n` entries reach the cap. -/
def cut : Nat → List (Event ρ ε α) → List (Event ρ ε α)
  | _, [] => []
  | _, .fetch ref level (some e) :: _ => [.fetch ref level (some e)]
  | n, .fetch ref level none :: events => .fetch ref level none :: cut n events
  | n, .entry a :: events => .entry a :: if n ≤ 1 then [] else cut (n - 1) events

/-- With `n` entries and `f` fetches done: every fetch has an entry before it, except the first,
and no more open calls than entries. -/
def Paced : Nat → Nat → List (Event ρ ε α) → Prop
  | _, _, [] => True
  | f, n, .fetch _ level _ :: events => f ≤ n ∧ level ≤ n ∧ Paced (f + 1) n events
  | f, n, .entry _ :: events => Paced f (n + 1) events

section

variable {max f k n : Nat} {a : α} {ref : ρ} {level : Nat} {failed : Option ε}
  {xs ys events : List (Event ρ ε α)} {p p' : Progress ρ α}

theorem andThen_assoc (first second third : Walk ρ ε α Bool) :
    andThen (andThen first second) third = andThen first (andThen second third) := by
  funext p
  simp only [andThen, bind_assoc]
  refine congrFun (congrArg (bind first) (funext fun hit => ?_)) p
  cases hit <;> simp

@[simp] theorem andThen_false (rest : Walk ρ ε α Bool) : andThen (return false) rest = rest := by
  simp [andThen]

@[simp] theorem andThen_return (first : Walk ρ ε α Bool) :
    andThen first (return false) = first := by
  have same : (fun hit => if hit = true then (return true : Walk ρ ε α Bool) else return false) =
      fun hit => return hit := by
    funext hit
    cases hit <;> rfl
  unfold andThen
  rw [same]
  exact bind_pure first

/-- A trace is done part by part. -/
theorem follow_append :
    follow max (xs ++ ys) = andThen (follow max xs) (follow max ys) := by
  induction xs with
  | nil => exact (andThen_false _).symm
  | cons event xs ih =>
    cases event with
    | fetch ref level failed =>
      rw [List.cons_append, follow, follow, ih, andThen, andThen, bind_assoc]
    | entry a => rw [List.cons_append, follow, follow, ih, andThen_assoc]

@[simp] theorem entries_append : entries (xs ++ ys) = entries xs ++ entries ys := by
  induction xs with
  | nil => rfl
  | cons event xs ih => cases event <;> simp [entries, ih]

@[simp] theorem fetches_append : fetches (xs ++ ys) = fetches xs ++ fetches ys := by
  induction xs with
  | nil => rfl
  | cons event xs ih => cases event <;> simp [fetches, ih]

theorem Paced.append (first : Paced f n xs)
    (second : Paced (f + (fetches xs).length) (n + (entries xs).length) ys) :
    Paced f n (xs ++ ys) := by
  induction xs generalizing f n with
  | nil => exact second
  | cons event xs ih =>
    cases event with
    | fetch ref level failed =>
      refine ⟨first.1, first.2.1, ih first.2.2 ?_⟩
      rw [show f + 1 + (fetches xs).length = f + (fetches (.fetch ref level failed :: xs)).length by
        simp [fetches]; omega]
      exact second
    | entry a =>
      refine ih first ?_
      rw [show n + 1 + (entries xs).length = n + (entries (.entry a :: xs)).length by
        simp [entries]; omega]
      exact second

theorem andThen_ok {first rest : Walk ρ ε α Bool} {hit : Bool} (done : first.run p = .ok hit p') :
    (andThen first rest).run p = if hit = true then .ok true p' else rest.run p' := by
  rw [andThen, EStateM.run_bind, done]
  cases hit <;> rfl

theorem follow_entry : (follow max (.entry a :: events)).run p =
    if max ≤ p.result.length + 1 then .ok true ⟨p.result ++ [a], p.fetched⟩
    else (follow max events).run ⟨p.result ++ [a], p.fetched⟩ := by
  have pushed : (push max a : Walk ρ ε α Bool).run p =
      .ok (decide (max ≤ p.result.length + 1)) ⟨p.result ++ [a], p.fetched⟩ := rfl
  rw [follow, andThen_ok pushed]
  simp only [decide_eq_true_eq]

theorem follow_fetch : (follow max (.fetch ref level failed :: events)).run p =
    match failed with
    | some e => .error e ⟨p.result, p.fetched ++ [(ref, level)]⟩
    | none => (follow max events).run ⟨p.result, p.fetched ++ [(ref, level)]⟩ := by
  rw [follow]
  cases failed <;> rfl

/-- What doing a trace comes to. -/
theorem follow_eq (room : p.result.length + n = max) (pos : 1 ≤ n) :
    (follow max events).run p =
      let p' : Progress ρ α := ⟨p.result ++ entries (cut n events),
        p.fetched ++ fetches (cut n events)⟩
      match failure (cut n events) with
      | some e => .error e p'
      | none => .ok (decide (n ≤ (entries (cut n events)).length)) p' := by
  induction events generalizing n p with
  | nil =>
    have short : ¬ n ≤ 0 := by omega
    simp [follow, cut, failure, entries, fetches, short]
  | cons event events ih =>
    cases event with
    | fetch ref level failed =>
      rw [follow_fetch]
      cases failed with
      | some e => simp [cut, failure, entries, fetches]
      | none =>
        have rest := @ih n ⟨p.result, p.fetched ++ [(ref, level)]⟩ room pos
        simp only [rest]
        simp [cut, failure, entries, fetches]
    | entry a =>
      rw [follow_entry]
      by_cases last : n ≤ 1
      · have full : max ≤ p.result.length + 1 := by omega
        simp [cut, last, full, failure, entries, fetches]
      · have short : ¬ max ≤ p.result.length + 1 := by omega
        have more : (p.result ++ [a]).length + (n - 1) = max := by
          rw [List.length_append, List.length_singleton]
          omega
        rw [if_neg short, @ih (n - 1) ⟨p.result ++ [a], p.fetched⟩ more (by omega)]
        have same (k : Nat) : n - 1 ≤ k ↔ n ≤ k + 1 := by omega
        simp [cut, last, failure, entries, fetches, same]

/-- Without a failure, what is put out is the beginning of what an uncapped traversal would. -/
theorem entries_cut (sound : failure (cut n events) = none) (pos : 1 ≤ n) :
    entries (cut n events) = (entries events).take n := by
  induction events generalizing n with
  | nil => simp [cut, entries]
  | cons event events ih =>
    cases event with
    | fetch ref level failed =>
      cases failed with
      | some e => cases sound
      | none => exact ih sound pos
    | entry a =>
      obtain ⟨k, rfl⟩ : ∃ k, n = k + 1 := ⟨n - 1, by omega⟩
      cases k with
      | zero => simp [cut, entries]
      | succ k =>
        have more : ¬ k + 1 + 1 ≤ 1 := by omega
        simp only [cut, if_neg more, failure, Nat.add_sub_cancel] at sound
        simp only [cut, if_neg more, Nat.add_sub_cancel, entries, List.take_succ_cons,
          ih sound (Nat.le_add_left 1 k)]

/-- The cap bounds what is put out. -/
theorem length_entries_cut (pos : 1 ≤ n) : (entries (cut n events)).length ≤ n := by
  induction events generalizing n with
  | nil => exact Nat.zero_le n
  | cons event events ih =>
    cases event with
    | fetch ref level failed =>
      cases failed with
      | some e => exact Nat.zero_le n
      | none => exact ih pos
    | entry a =>
      by_cases last : n ≤ 1
      · simpa [cut, last, entries] using pos
      · have rest := @ih (n - 1) (by omega)
        simp only [cut, if_neg last, entries, List.length_cons]
        omega

/-- What is done is the beginning of the trace. -/
theorem cut_prefix (n : Nat) (events : List (Event ρ ε α)) : cut n events <+: events := by
  induction events generalizing n with
  | nil => exact List.prefix_refl []
  | cons event events ih =>
    cases event with
    | fetch ref level failed =>
      cases failed with
      | some e => exact ⟨events, rfl⟩
      | none => exact List.prefix_cons_inj _ |>.mpr (ih n)
    | entry a =>
      rw [cut]
      split
      · exact ⟨events, rfl⟩
      · exact List.prefix_cons_inj _ |>.mpr (ih (n - 1))

/-- A fetch is done exactly when the cap is not reached before it and nothing failed before it. -/
theorem mem_cut (pos : 1 ≤ n) : .fetch ref level failed ∈ cut n events ↔
    ∃ pre post, events = pre ++ .fetch ref level failed :: post ∧ failure pre = none ∧
      (entries pre).length < n := by
  induction events generalizing n with
  | nil =>
    constructor
    · exact fun h => absurd h List.not_mem_nil
    · rintro ⟨pre, post, eq, -⟩
      cases pre <;> cases eq
  | cons event events ih =>
    constructor
    · intro mem
      cases event with
      | fetch r l f =>
        by_cases here : Event.fetch (α := α) ref level failed = .fetch r l f
        · exact ⟨[], events, by rw [here]; rfl, rfl, pos⟩
        · cases f with
          | some e =>
            simp only [cut, List.mem_singleton] at mem
            exact absurd mem here
          | none =>
            simp only [cut, List.mem_cons, here, false_or] at mem
            obtain ⟨pre, post, rfl, sound, short⟩ := (ih pos).mp mem
            exact ⟨.fetch r l none :: pre, post, rfl, sound, short⟩
      | entry a =>
        by_cases last : n ≤ 1
        · simp [cut, last] at mem
        · simp only [cut, if_neg last, List.mem_cons, reduceCtorEq, false_or] at mem
          obtain ⟨pre, post, rfl, sound, short⟩ := (ih (by omega)).mp mem
          refine ⟨.entry a :: pre, post, rfl, sound, ?_⟩
          simp only [entries, List.length_cons]
          omega
    · rintro ⟨pre, post, eq, sound, short⟩
      cases pre with
      | nil =>
        obtain ⟨rfl, rfl⟩ := List.cons.inj eq
        cases failed <;> simp [cut]
      | cons first pre =>
        obtain ⟨rfl, rfl⟩ := List.cons.inj eq
        cases event with
        | fetch r l f =>
          cases f with
          | some e => cases sound
          | none =>
            refine List.mem_cons_of_mem _ ((ih pos).mpr ⟨pre, post, rfl, sound, short⟩)
        | entry a =>
          simp only [entries, List.length_cons] at short
          have more : ¬ n ≤ 1 := by omega
          simp only [cut, if_neg more]
          exact List.mem_cons_of_mem _
            ((ih (by omega)).mpr ⟨pre, post, rfl, sound, by omega⟩)

/-- The error of what is done is that of a fetch in it. -/
theorem failure_cut {e : ε} : failure (cut n events) = some e ↔
    ∃ ref level, .fetch ref level (some e) ∈ cut n events := by
  induction events generalizing n with
  | nil => simp [cut, failure]
  | cons event events ih =>
    cases event with
    | fetch r l f =>
      cases f with
      | some e' =>
        simp only [cut, failure, List.mem_singleton, Event.fetch.injEq, Option.some.injEq]
        constructor
        · rintro rfl
          exact ⟨r, l, rfl, rfl, rfl⟩
        · rintro ⟨_, _, -, -, rfl⟩
          rfl
      | none => simp [cut, failure, ih]
    | entry a =>
      by_cases last : n ≤ 1
      · simp [cut, last, failure]
      · simp [cut, last, failure, ih]

theorem mem_fetches :
    (ref, level) ∈ fetches events ↔ ∃ failed, .fetch ref level failed ∈ events := by
  induction events with
  | nil => simp [fetches]
  | cons event events ih =>
    cases event with
    | fetch r l f =>
      simp only [fetches, List.mem_cons, Prod.mk.injEq, ih, Event.fetch.injEq]
      constructor
      · rintro (⟨rfl, rfl⟩ | ⟨failed, mem⟩)
        · exact ⟨f, .inl ⟨rfl, rfl, rfl⟩⟩
        · exact ⟨failed, .inr mem⟩
      · rintro ⟨failed, ⟨rfl, rfl, -⟩ | mem⟩
        · exact .inl ⟨rfl, rfl⟩
        · exact .inr ⟨failed, mem⟩
    | entry a => simp [fetches, ih]

/-- The entries pay for the fetches and for the open calls. -/
theorem Paced.bound (paced : Paced f k events) (pos : 1 ≤ n) (start : f ≤ k + n) :
    f + (fetches (cut n events)).length ≤ k + n ∧ ∀ q ∈ fetches (cut n events), q.2 < k + n := by
  induction events generalizing f k n with
  | nil => exact ⟨start, fun q mem => absurd mem List.not_mem_nil⟩
  | cons event events ih =>
    cases event with
    | fetch r l failed =>
      obtain ⟨paid, nested, rest⟩ := paced
      cases failed with
      | some e =>
        refine ⟨by simp [cut, fetches]; omega, fun q mem => ?_⟩
        simp only [cut, fetches, List.mem_singleton] at mem
        rw [mem]
        exact Nat.lt_of_le_of_lt nested (by omega)
      | none =>
        obtain ⟨count, levels⟩ := ih rest pos (by omega)
        refine ⟨by simp only [cut, fetches, List.length_cons]; omega, fun q mem => ?_⟩
        rcases List.mem_cons.mp mem with rfl | mem
        · exact Nat.lt_of_le_of_lt nested (by omega)
        · exact levels q mem
    | entry a =>
      by_cases last : n ≤ 1
      · refine ⟨by simp [cut, last, fetches]; omega, fun q mem => ?_⟩
        simp [cut, last, fetches] at mem
      · have room : k + 1 + (n - 1) = k + n := by omega
        have rest := @ih f (k + 1) (n - 1) paced (by omega) (by omega)
        rw [room] at rest
        simpa only [cut, if_neg last, fetches] using rest

/-- A part of a trace, under so many open calls, whose entries pay for its fetches. -/
structure Steady (level : Nat) (xs : List (Event ρ ε α)) : Prop where
  pays : (fetches xs).length ≤ (entries xs).length
  paced : ∀ f n, f ≤ n + 1 → level ≤ n → Paced f n xs

theorem steady_nil (level : Nat) : Steady level ([] : List (Event ρ ε α)) :=
  ⟨Nat.le_refl _, fun _ _ _ _ => trivial⟩

theorem Steady.append (first : Steady level xs) (second : Steady level ys) :
    Steady level (xs ++ ys) := by
  have pays := first.pays
  constructor
  · rw [fetches_append, entries_append, List.length_append, List.length_append]
    exact Nat.add_le_add first.pays second.pays
  · intro f n start nested
    exact (first.paced f n start nested).append (second.paced _ _ (by omega) (by omega))

theorem Steady.flatMap {β : Type} {part : β → List (Event ρ ε α)}
    (each : ∀ b, Steady level (part b)) (bs : List β) : Steady level (bs.flatMap part) := by
  induction bs with
  | nil => exact steady_nil level
  | cons b rest ih => exact (each b).append ih

theorem steady_entry (a : α) : Steady level [(.entry a : Event ρ ε α)] :=
  ⟨Nat.zero_le 1, fun _ _ _ _ => trivial⟩

/-- An entry and a fetch for it, one call deeper. -/
theorem Steady.deeper (rest : Steady (level + 1) xs) :
    Steady level (.entry a :: .fetch ref (level + 1) failed :: xs) :=
  ⟨Nat.succ_le_succ rest.pays, fun _ _ start nested =>
    ⟨start, Nat.succ_le_succ nested, rest.paced _ _ (Nat.succ_le_succ start)
      (Nat.succ_le_succ nested)⟩⟩

end

end LldbDebugMcp.Library.Traversal
