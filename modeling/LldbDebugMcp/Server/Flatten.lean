/- module: LldbDebugMcp/Server/Flatten
   source: crates/mcp-tools/src/flatten.rs
   digest: The flattening of a variable graph against its reference definition, and its bounds. -/

import Mathlib.Algebra.Group.Int.Defs
import Mathlib.Data.List.Infix
import LldbDebugMcp.Core.Types
import LldbDebugMcp.Library.Traversal

set_option autoImplicit false
set_option relaxedAutoImplicit false

namespace LldbDebugMcp.Server.Flatten

open LldbDebugMcp.Core.Types
open LldbDebugMcp.Library.Traversal

/-- A flat variable. Nested names are dotted paths. -/
structure FlatVariable where
  name : String
  value : String
  ty : String
  hasChildren : Bool
  childrenCount : Int
  deriving DecidableEq, Repr

abbrev Fetcher := Int → Except BackendError (List Variable)

abbrev Flattening := Walk Int BackendError FlatVariable

/-- A variable by itself, under the name that it has in the result. -/
def bare (name : String) (v : Variable) : FlatVariable := ⟨name, v.value, v.ty, false, 0⟩

/-- A container at the depth limit. -/
def marked (name : String) (v : Variable) : FlatVariable :=
  { bare name v with hasChildren := true, childrenCount := v.named + v.indexed }

def childName (path : String) (v : Variable) : String := path ++ "." ++ v.name

/-- Fetch a level, under so many open calls of `flatten_recursive`. -/
def fetchLevel (fetch : Fetcher) (level : Nat) (ref : Int) : Flattening (List Variable) := do
  note ref level none
  match fetch ref with
  | .ok vars => return vars
  | .error e => throw e

/-- One turn of either loop, which says whether the cap was hit. `recurse` is there as long as
the depth is positive. -/
def visit (max : Nat) (recurse : Option (Int → String → Flattening Bool)) (name : String)
    (v : Variable) : Flattening Bool :=
  if v.variablesReference > 0 then
    match recurse with
    | some recurse => do
      if ← push max (bare name v) then return true
      recurse v.variablesReference name
    | none => push max (marked name v)
  else push max (bare name v)

/-- Either loop. -/
def visitAll (max : Nat) (recurse : Option (Int → String → Flattening Bool))
    (name : Variable → String) : List Variable → Flattening Bool
  | [] => return false
  | v :: rest => do
    if ← visit max recurse (name v) v then return true
    visitAll max recurse name rest

/-- `flatten_recursive`. The depth is only compared with zero, and lowered while it is
positive. -/
def flattenRecursive (fetch : Fetcher) (max : Nat) : Nat → Nat → Int → String → Flattening Bool
  | 0, level, ref, path => do
    let vars ← fetchLevel fetch level ref
    visitAll max none (childName path) vars
  | depth + 1, level, ref, path => do
    let vars ← fetchLevel fetch level ref
    visitAll max (some (flattenRecursive fetch max depth (level + 1))) (childName path) vars

/-- The text occurs in the other. -/
def contains (text part : String) : Bool := decide (part.toList <:+: text.toList)

/-- The filter of the top level, for what `to_lowercase` is. -/
def included (toLowercase : String → String) (filter : String) (v : Variable) : Bool :=
  filter.isEmpty || contains (toLowercase v.name) (toLowercase filter)

/-- What a call returns, and the fetches that it makes, each with the open calls. -/
structure Flattened where
  outcome : Except BackendError (List FlatVariable × Bool)
  fetched : List (Int × Nat)

def flattenWalk (toLowercase : String → String) (fetch : Fetcher) (variablesReference : Int)
    (depth max : Nat) (filter : String) : Flattening Bool := do
  let vars ← fetchLevel fetch 0 variablesReference
  let recurse := match depth with
    | 0 => none
    | depth + 1 => some (flattenRecursive fetch max depth 1)
  visitAll max recurse (·.name) (vars.filter (included toLowercase filter))

def flattenVariables (toLowercase : String → String) (fetch : Fetcher) (variablesReference : Int)
    (depth : Int) (max : Nat) (filter : String) : Flattened :=
  match (flattenWalk toLowercase fetch variablesReference depth.toNat max filter).run .new with
  | .ok truncated p => ⟨.ok (p.result, truncated), p.fetched⟩
  | .error e p => ⟨.error e, p.fetched⟩

/-! The reference definition, which shares nothing with the loops. -/

/-- The children of a reference, none when the fetch fails. -/
def children (fetch : Fetcher) (ref : Int) : List Variable :=
  match fetch ref with
  | .ok vars => vars
  | .error _ => []

/-- The preorder expansion of a variable down to a depth. -/
def expand (fetch : Fetcher) : Nat → String → Variable → List FlatVariable
  | 0, name, v =>
    if v.variablesReference > 0 then [⟨name, v.value, v.ty, true, v.named + v.indexed⟩]
    else [⟨name, v.value, v.ty, false, 0⟩]
  | depth + 1, name, v =>
    ⟨name, v.value, v.ty, false, 0⟩ :: if v.variablesReference > 0 then
      (children fetch v.variablesReference).flatMap fun c =>
        expand fetch depth (name ++ "." ++ c.name) c
    else []

/-- The name contains the filter case-insensitively; the empty filter takes all. -/
def wanted (toLowercase : String → String) (filter : String) (v : Variable) : Bool :=
  filter == "" || decide ((toLowercase filter).toList <:+: (toLowercase v.name).toList)

/-- The expansion of the variables of the top level that the filter takes. -/
def expansion (toLowercase : String → String) (fetch : Fetcher) (variablesReference : Int)
    (depth : Int) (filter : String) : List FlatVariable :=
  ((children fetch variablesReference).filter (wanted toLowercase filter)).flatMap fun v =>
    expand fetch depth.toNat v.name v

abbrev Trace := List (Event Int BackendError FlatVariable)

/-- A fetch and what is made of the level. -/
def fetchTrace (fetch : Fetcher) (level : Nat) (ref : Int) (rest : List Variable → Trace) : Trace :=
  match fetch ref with
  | .ok vars => .fetch ref level none :: rest vars
  | .error e => [.fetch ref level (some e)]

/-- The expansion of a variable with the fetches that it takes. -/
def expandTrace (fetch : Fetcher) : Nat → Nat → String → Variable → Trace
  | 0, _, name, v =>
    if v.variablesReference > 0 then [.entry ⟨name, v.value, v.ty, true, v.named + v.indexed⟩]
    else [.entry ⟨name, v.value, v.ty, false, 0⟩]
  | depth + 1, level, name, v =>
    .entry ⟨name, v.value, v.ty, false, 0⟩ :: if v.variablesReference > 0 then
      fetchTrace fetch (level + 1) v.variablesReference fun vars => vars.flatMap fun c =>
        expandTrace fetch depth (level + 1) (name ++ "." ++ c.name) c
    else []

/-- The order in which an uncapped call fetches and puts out. -/
def traversal (toLowercase : String → String) (fetch : Fetcher) (variablesReference : Int)
    (depth : Int) (filter : String) : Trace :=
  fetchTrace fetch 0 variablesReference fun vars =>
    (vars.filter (wanted toLowercase filter)).flatMap fun v =>
      expandTrace fetch depth.toNat 0 v.name v

section

variable {toLowercase : String → String} {fetch : Fetcher} {max : Nat} {ref : Int} {level : Nat}
  {name filter : String} {v : Variable} {depth : Int}

/-- A fetch, and what is done with the level. -/
private theorem fetch_follow {body : List Variable → Flattening Bool}
    {rest : List Variable → Trace} (same : ∀ vars, body vars = follow max (rest vars)) :
    (do body (← fetchLevel fetch level ref)) = follow max (fetchTrace fetch level ref rest) := by
  unfold fetchLevel fetchTrace
  cases fetch ref with
  | ok vars => simp [follow, same]
  | error e =>
    simp only [follow]
    rfl

/-- A loop does the traces of its turns one after the other. -/
private theorem visitAll_follow {recurse : Option (Int → String → Flattening Bool)}
    {named : Variable → String} {trace : Variable → Trace}
    (turn : ∀ v, visit max recurse (named v) v = follow max (trace v)) (vars : List Variable) :
    visitAll max recurse named vars = follow max (vars.flatMap trace) := by
  induction vars with
  | nil => rfl
  | cons v rest ih =>
    rw [List.flatMap_cons, follow_append, ← turn, ← ih]
    rfl

private theorem visit_leaf : visit max none name v =
    follow max (expandTrace fetch 0 level name v) := by
  unfold visit expandTrace
  split
  · exact (andThen_return _).symm
  · exact (andThen_return _).symm

private theorem visit_container {d : Nat} {recurse : Int → String → Flattening Bool}
    (deeper : ∀ ref path, recurse ref path = follow max (fetchTrace fetch (level + 1) ref
      fun vars => vars.flatMap fun c => expandTrace fetch d (level + 1) (childName path c) c)) :
    visit max (some recurse) name v = follow max (expandTrace fetch (d + 1) level name v) := by
  unfold visit expandTrace
  split
  · simp only [deeper]
    rfl
  · exact (andThen_return _).symm

/-- `flatten_recursive` does the expansions of the children. -/
private theorem flattenRecursive_follow (d level : Nat) (ref : Int) (path : String) :
    flattenRecursive fetch max d level ref path = follow max (fetchTrace fetch level ref
      fun vars => vars.flatMap fun c => expandTrace fetch d level (childName path c) c) := by
  induction d generalizing level ref path with
  | zero =>
    exact fetch_follow fun vars => visitAll_follow (fun v => visit_leaf) vars
  | succ d ih =>
    exact fetch_follow fun vars => visitAll_follow
      (fun v => visit_container fun ref path => ih (level + 1) ref path) vars

private theorem included_eq_wanted : included toLowercase filter = wanted toLowercase filter := by
  funext v
  have empty : filter.isEmpty = (filter == "") := by
    rw [Bool.eq_iff_iff, String.isEmpty_iff, beq_iff_eq]
  rw [included, wanted, empty, contains]

private theorem flattenWalk_follow : flattenWalk toLowercase fetch ref depth.toNat max filter =
    follow max (traversal toLowercase fetch ref depth filter) := by
  unfold flattenWalk traversal
  rw [included_eq_wanted]
  refine fetch_follow fun vars => visitAll_follow (fun v => ?_) _
  cases depth.toNat with
  | zero => exact visit_leaf
  | succ d => exact visit_container fun ref path => flattenRecursive_follow d 1 ref path

/-- What a call comes to, in terms of its cut traversal. -/
private theorem flatten_eq (pos : 1 ≤ max) :
    let done := cut max (traversal toLowercase fetch ref depth filter)
    flattenVariables toLowercase fetch ref depth max filter =
      ⟨match failure done with
        | some e => .error e
        | none => .ok (entries done, decide (max ≤ (entries done).length)), fetches done⟩ := by
  intro done
  unfold flattenVariables
  rw [flattenWalk_follow, follow_eq (n := max) (Nat.zero_add _) pos]
  cases failure done <;> simp [Progress.new, done]

private theorem entries_flatMap {β : Type} {trace : β → Trace} (bs : List β) :
    entries (bs.flatMap trace) = bs.flatMap fun b => entries (trace b) := by
  induction bs with
  | nil => rfl
  | cons b rest ih => rw [List.flatMap_cons, List.flatMap_cons, entries_append, ih]

private theorem entries_fetchTrace (rest : List Variable → Trace) (none : rest [] = []) :
    entries (fetchTrace fetch level ref rest) = entries (rest (children fetch ref)) := by
  unfold fetchTrace children
  cases fetch ref with
  | ok vars => rfl
  | error e =>
    rw [none]
    rfl

/-- What a traversal puts out is the expansion. -/
private theorem entries_expandTrace (d level : Nat) (name : String) (v : Variable) :
    entries (expandTrace fetch d level name v) = expand fetch d name v := by
  induction d generalizing level name v with
  | zero =>
    simp only [expandTrace, expand]
    split <;> rfl
  | succ d ih =>
    simp only [expandTrace, expand, entries]
    split
    · rw [entries_fetchTrace _ rfl, entries_flatMap]
      simp only [ih]
    · rfl

private theorem entries_traversal : entries (traversal toLowercase fetch ref depth filter) =
    expansion toLowercase fetch ref depth filter := by
  rw [traversal, entries_fetchTrace _ rfl, entries_flatMap]
  simp only [entries_expandTrace]
  rfl

private theorem steady_expandTrace (d level : Nat) (name : String) (v : Variable) :
    Steady level (expandTrace fetch d level name v) := by
  induction d generalizing level name v with
  | zero =>
    unfold expandTrace
    split
    · exact steady_entry _
    · exact steady_entry _
  | succ d ih =>
    unfold expandTrace
    split
    · unfold fetchTrace
      cases fetch v.variablesReference with
      | ok vars => exact .deeper (.flatMap (fun c => ih (level + 1) (childName name c) c) vars)
      | error e => exact .deeper (steady_nil _)
    · exact steady_entry _

private theorem paced_traversal : Paced 0 0 (traversal toLowercase fetch ref depth filter) := by
  unfold traversal fetchTrace
  cases fetch ref with
  | ok vars =>
    have steady :=
      Steady.flatMap (fun v => @steady_expandTrace fetch depth.toNat 0 v.name v)
        (vars.filter (wanted toLowercase filter))
    exact ⟨Nat.le_refl 0, Nat.le_refl 0, steady.paced 1 0 (Nat.le_refl 1) (Nat.le_refl 0)⟩
  | error e => exact ⟨Nat.le_refl 0, Nat.le_refl 0, trivial⟩

private theorem mem_flatMap {β : Type} {trace : β → Trace} {bs : List β}
    {e : Event Int BackendError FlatVariable} (mem : e ∈ bs.flatMap trace) :
    ∃ b, e ∈ trace b := by
  obtain ⟨b, -, mem⟩ := List.mem_flatMap.mp mem
  exact ⟨b, mem⟩

/-- The error of a fetch, if it fails. -/
def errorOf : Except BackendError (List Variable) → Option BackendError
  | .ok _ => none
  | .error e => some e

/-- A fetch of the trace is the one that leads it, or one that is made of its level. -/
private theorem mem_fetchTrace {rest : List Variable → Trace} {r : Int} {l : Nat}
    {failed : Option BackendError}
    (mem : .fetch r l failed ∈ fetchTrace fetch level ref rest) :
    (l = level ∧ failed = errorOf (fetch r)) ∨
      ∃ vars, .fetch r l failed ∈ rest vars := by
  unfold fetchTrace at mem
  cases fetched : fetch ref with
  | ok vars =>
    rw [fetched] at mem
    rcases List.mem_cons.mp mem with eq | mem
    · cases eq
      exact .inl ⟨rfl, by rw [fetched]; rfl⟩
    · exact .inr ⟨vars, mem⟩
  | error e =>
    rw [fetched] at mem
    cases List.mem_singleton.mp mem
    exact .inl ⟨rfl, by rw [fetched]; rfl⟩

/-- No call is opened below the depth limit, and a fetch fails as its reference does. -/
private theorem mem_expandTrace {d level l : Nat} {name : String} {v : Variable} {r : Int}
    {failed : Option BackendError} (mem : .fetch r l failed ∈ expandTrace fetch d level name v) :
    l ≤ level + d ∧ failed = errorOf (fetch r) := by
  induction d generalizing level name v with
  | zero =>
    unfold expandTrace at mem
    split at mem
    · cases List.mem_singleton.mp mem
    · cases List.mem_singleton.mp mem
  | succ d ih =>
    unfold expandTrace at mem
    rcases List.mem_cons.mp mem with eq | mem
    · cases eq
    · split at mem
      · rcases mem_fetchTrace mem with ⟨rfl, eq⟩ | ⟨vars, mem⟩
        · exact ⟨by omega, eq⟩
        · obtain ⟨c, mem⟩ := mem_flatMap mem
          obtain ⟨nested, eq⟩ := ih mem
          exact ⟨by omega, eq⟩
      · cases mem

private theorem mem_traversal {l : Nat} {r : Int} {failed : Option BackendError}
    (mem : .fetch r l failed ∈ traversal toLowercase fetch ref depth filter) :
    l ≤ depth.toNat ∧ failed = errorOf (fetch r) := by
  rcases mem_fetchTrace mem with ⟨rfl, eq⟩ | ⟨vars, mem⟩
  · exact ⟨Nat.zero_le _, eq⟩
  · obtain ⟨v, mem⟩ := mem_flatMap mem
    obtain ⟨nested, eq⟩ := mem_expandTrace mem
    exact ⟨by omega, eq⟩

end

/-- The traversal comes to a fetch of the reference with fewer than `max` entries put out, and
with no fetch before it that fails. -/
def Reached (max : Nat) (trace : Trace) (ref : Int) (level : Nat) : Prop :=
  ∃ pre failed post, trace = pre ++ .fetch ref level failed :: post ∧ failure pre = none ∧
    (entries pre).length < max

private theorem mem_done {max : Nat} {trace : Trace} {q : Int × Nat} (pos : 1 ≤ max) :
    q ∈ fetches (cut max trace) ↔ Reached max trace q.1 q.2 := by
  rw [show q = (q.1, q.2) from rfl, mem_fetches]
  constructor
  · rintro ⟨failed, mem⟩
    obtain ⟨pre, post, rest⟩ := (mem_cut pos).mp mem
    exact ⟨pre, failed, post, rest⟩
  · rintro ⟨pre, failed, post, rest⟩
    exact ⟨failed, (mem_cut pos).mpr ⟨pre, post, rest⟩⟩

private theorem errorOf_eq_some {r : Except BackendError (List Variable)} {e : BackendError} :
    errorOf r = some e ↔ r = .error e := by
  cases r <;> simp [errorOf]

/-- What is cut off fails as a reference does that the traversal comes to. -/
private theorem failure_iff {toLowercase : String → String} {fetch : Fetcher} {ref depth : Int}
    {filter : String} {max : Nat} {e : BackendError} (pos : 1 ≤ max) :
    failure (cut max (traversal toLowercase fetch ref depth filter)) = some e ↔
      ∃ r level, Reached max (traversal toLowercase fetch ref depth filter) r level ∧
        fetch r = .error e := by
  have begins : cut max (traversal toLowercase fetch ref depth filter) <+: _ := cut_prefix max _
  rw [failure_cut]
  constructor
  · rintro ⟨r, level, mem⟩
    have same := (mem_traversal (begins.subset mem)).2
    have reached := (mem_done (q := (r, level)) pos).mp (mem_fetches.mpr ⟨_, mem⟩)
    exact ⟨r, level, reached, errorOf_eq_some.mp same.symm⟩
  · rintro ⟨r, level, reached, result⟩
    obtain ⟨failed, mem⟩ := mem_fetches.mp ((mem_done (q := (r, level)) pos).mpr reached)
    have same := (mem_traversal (begins.subset mem)).2
    obtain rfl : failed = some e := same.trans (errorOf_eq_some.mpr result)
    exact ⟨r, level, mem⟩

/-- When every fetch that is made succeeds, the result is the beginning of the expansion; the
call fails exactly as a reference that is reached; it fetches what is reached, in order, and
nothing at the depth limit. -/
theorem flatten_reference (toLowercase : String → String) (fetch : Fetcher)
    (variablesReference depth : Int) (max : Nat) (filter : String) (pos : 1 ≤ max) :
    let all := expansion toLowercase fetch variablesReference depth filter
    let trace := traversal toLowercase fetch variablesReference depth filter
    let r := flattenVariables toLowercase fetch variablesReference depth max filter
    ((∀ q ∈ r.fetched, ∃ vars, fetch q.1 = .ok vars) →
      r.outcome = .ok (all.take max, decide (max ≤ all.length))) ∧
    (∀ e, r.outcome = .error e ↔ ∃ ref level, Reached max trace ref level ∧ fetch ref = .error e) ∧
    (∀ q, q ∈ r.fetched ↔ Reached max trace q.1 q.2) ∧
    r.fetched <+: fetches trace ∧
    ∀ q ∈ r.fetched, q.2 ≤ depth.toNat := by
  intro all trace r
  have eq : r = _ := flatten_eq pos
  have fetched : r.fetched = fetches (cut max trace) := by rw [eq]
  have begins : cut max trace <+: trace := cut_prefix max trace
  refine ⟨fun succeed => ?_, fun e => ?_, fun q => ?_, ?_, fun q mem => ?_⟩
  · have sound : failure (cut max trace) = none := by
      rw [Option.eq_none_iff_forall_ne_some]
      intro e failed
      obtain ⟨ref, level, reached, result⟩ := (failure_iff pos).mp failed
      obtain ⟨vars, ok⟩ := succeed (ref, level) (by rw [fetched]; exact (mem_done pos).mpr reached)
      rw [result] at ok
      cases ok
    have taken : entries (cut max trace) = all.take max := by
      rw [entries_cut sound pos, entries_traversal]
    have outcome : r.outcome = .ok (entries (cut max trace),
        decide (max ≤ (entries (cut max trace)).length)) := by
      rw [eq]
      simp only [trace] at sound
      simp only [sound, trace]
    rw [outcome, taken, List.length_take]
    simp
  · rw [← failure_iff pos, eq]
    change (match failure (cut max trace) with
      | some e => .error e
      | none => .ok (entries (cut max trace), _)) = Except.error e ↔ _
    cases failure (cut max trace) <;> simp
  · rw [fetched]
    exact mem_done pos
  · obtain ⟨rest, same⟩ := begins
    refine ⟨fetches rest, ?_⟩
    rw [fetched, ← fetches_append, same]
  · rw [fetched] at mem
    obtain ⟨failed, mem⟩ := mem_fetches.mp mem
    exact (mem_traversal (begins.subset mem)).1

/-- The first levels of a tree, of which the second container cannot be read. -/
def broken : Fetcher
  | 1 => .ok [⟨"a", "1", "int", 0, 0, 0⟩, ⟨"b", "", "S", 2, 2, 0⟩, ⟨"c", "", "T", 3, 1, 0⟩]
  | 2 => .ok [⟨"x", "2", "int", 0, 0, 0⟩, ⟨"y", "", "U", 4, 0, 5⟩]
  | _ => .error .closed

theorem flatten_reference_broken :
    (flattenVariables id broken 1 1 4 "").outcome =
      .ok ((expansion id broken 1 1 "").take 4, decide (4 ≤ (expansion id broken 1 1 "").length)) ∧
    (flattenVariables id broken 1 1 4 "").fetched = [(1, 0), (2, 1)] := by
  have fetched : (flattenVariables id broken 1 1 4 "").fetched = [(1, 0), (2, 1)] := by
    decide +kernel
  refine ⟨(flatten_reference id broken 1 1 4 "" (by decide)).1 fun q mem => ?_, fetched⟩
  rw [fetched] at mem
  rcases List.mem_cons.mp mem with rfl | mem
  · exact ⟨_, rfl⟩
  · cases List.mem_singleton.mp mem
    exact ⟨_, rfl⟩

/-- Whatever graph the fetches show, the cap bounds the fetches, the open calls of
`flatten_recursive` and the entries. -/
theorem flatten_bounded (toLowercase : String → String) (fetch : Fetcher)
    (variablesReference depth : Int) (max : Nat) (filter : String) (pos : 1 ≤ max) :
    let r := flattenVariables toLowercase fetch variablesReference depth max filter
    r.fetched.length ≤ max ∧ (∀ q ∈ r.fetched, q.2 ≤ max) ∧
      ∀ result truncated, r.outcome = .ok (result, truncated) → result.length ≤ max := by
  intro r
  have eq : r = _ := flatten_eq pos
  have bound := (@paced_traversal toLowercase fetch variablesReference filter depth).bound pos
    (Nat.zero_le _)
  rw [Nat.zero_add, Nat.zero_add] at bound
  refine ⟨?_, fun q mem => ?_, fun result truncated outcome => ?_⟩
  · rw [eq]
    exact bound.1
  · rw [eq] at mem
    exact Nat.le_of_lt (bound.2 q mem)
  · rw [eq] at outcome
    simp only at outcome
    split at outcome
    · cases outcome
    · obtain ⟨rfl, -⟩ := Prod.mk.inj (Except.ok.inj outcome)
      exact length_entries_cut pos

/-- A node that reaches itself, beside a container without children. -/
def cycle : Fetcher
  | 1 => .ok [⟨"empty", "", "S", 2, 0, 0⟩, ⟨"self", "", "T *", 1, 1, 0⟩]
  | _ => .ok []

theorem flatten_bounded_cycle :
    (flattenVariables id cycle 1 (2 ^ 63 - 1) 5 "").fetched.length ≤ 5 ∧
    (flattenVariables id cycle 1 (2 ^ 63 - 1) 5 "").fetched =
      [(1, 0), (2, 1), (1, 1), (2, 2), (1, 2)] :=
  ⟨(flatten_bounded id cycle 1 (2 ^ 63 - 1) 5 "" (by decide)).1, by decide +kernel⟩

end LldbDebugMcp.Server.Flatten
