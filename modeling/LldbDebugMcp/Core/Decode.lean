/- module: LldbDebugMcp/Core/Decode
   source: crates/lldb-backend/src/body.rs, crates/dap-client/src/wire.rs (the derived Deserialize)
   digest: How a derived decoder reads a JSON value, and which values present a datum to it. -/

import Mathlib.Algebra.Ring.Int.Defs
import Mathlib.Data.List.Forall2
import LldbDebugMcp.Core.Types

set_option autoImplicit false
set_option relaxedAutoImplicit false

namespace LldbDebugMcp.Core.Decode

open LldbDebugMcp.Core.Types

variable {α : Type}

/-- A decoder. What serde says of a value that it rejects is left to the environment. -/
abbrev Decoder (α : Type) := Value → Option α

/-- The integers that an `i64` holds. -/
def InI64 (n : Int) : Prop := -2 ^ 63 ≤ n ∧ n < 2 ^ 63

instance (n : Int) : Decidable (InI64 n) := inferInstanceAs (Decidable (_ ∧ _))

def i64 : Decoder Int
  | .int n => if InI64 n then some n else none
  | _ => none

def text : Decoder String
  | .string s => some s
  | _ => none

def flag : Decoder Bool
  | .bool b => some b
  | _ => none

def vec (d : Decoder α) : Decoder (List α)
  | .array items => items.mapM d
  | _ => none

/-- A raw value. -/
def raw : Decoder Value := some

def option (d : Decoder α) : Decoder (Option α)
  | .null => some none
  | v => (d v).map some

/-- Where the fields of a struct are found: under their names in an object, or at their places in
an array of no more than so many items. -/
def slots (count : Nat) : Value → Option (Nat → String → Option Value)
  | .object fields => some fun _ key => fields.lookup key
  | .array items => if items.length ≤ count then some fun i _ => items[i]? else none
  | _ => none

/-- No field of these names is given twice. -/
def once (keys : List String) : Value → Bool
  | .object fields => keys.all fun key => (fields.countP fun f => f.1 == key) ≤ 1
  | _ => true

/-- The fields of a struct that is decoded from a text, where a field that is given twice is
refused. -/
def textSlots (keys : List String) (v : Value) : Option (Nat → String → Option Value) :=
  if once keys v then slots keys.length v else none

/-- A field that must be there. -/
def required (d : Decoder α) (slot : Option Value) : Option α := slot.bind d

/-- A field with `#[serde(default)]`. -/
def withDefault (d : Decoder α) (default : α) : Option Value → Option α
  | some v => d v
  | none => some default

/-! Which values present a datum. -/

abbrev Shown := Value → Prop

/-- A field of a record: its name, the values that present it, and when it may be left out. -/
structure Field where
  key : String
  given : Shown
  absent : Prop

/-- What stands in a slot presents the datum of the field. -/
def InSlot (given : Shown) (absent : Prop) : Option Value → Prop
  | some v => given v
  | none => absent

def Field.Shows (f : Field) : Option Value → Prop := InSlot f.given f.absent

def int (n : Int) : Shown := fun v => v = .int n ∧ InI64 n

def string (s : String) : Shown := fun v => v = .string s

def bool (b : Bool) : Shown := fun v => v = .bool b

def list (items : List Shown) : Shown := fun v =>
  ∃ vs, v = .array vs ∧ List.Forall₂ (fun v item => item v) vs items

/-- The fields in any order, among any others; or in their own order in an array. -/
def record (fields : List Field) : Shown := fun v =>
  ∃ get, slots fields.length v = some get ∧
    ∀ (i : Nat) (f : Field), fields[i]? = some f → f.Shows (get i f.key)

/-- The same, with no field given twice. -/
def recordOnce (fields : List Field) : Shown := fun v =>
  once (fields.map (·.key)) v = true ∧ record fields v

/-- A field that must be there, and one that may be left out where it holds its default. -/
def must (key : String) (given : Shown) : Field := ⟨key, given, False⟩

def may (key : String) (given : Shown) (absent : Prop) : Field := ⟨key, given, absent⟩

/-- The decoder accepts what presents a datum, as that datum, and nothing else. -/
def Exact (d : Decoder α) (shown : α → Shown) : Prop := ∀ v a, d v = some a ↔ shown a v

variable {d : Decoder α} {shown : α → Shown}

theorem exact_i64 : Exact i64 int := by
  intro v n
  cases v with
  | int m =>
    simp only [i64, int, Value.int.injEq]
    constructor
    · intro h
      split at h
      · rename_i bounded
        obtain rfl := Option.some.inj h
        exact ⟨rfl, bounded⟩
      · cases h
    · rintro ⟨rfl, bounded⟩
      rw [if_pos bounded]
  | null | bool | string | array | object => simp [i64, int]

theorem exact_text : Exact text string := by
  intro v s
  cases v <;> simp [text, string]

theorem exact_flag : Exact flag bool := by
  intro v b
  cases v <;> simp [flag, bool]

theorem exact_raw : Exact raw fun a v => v = a := by
  intro v a
  simp [raw]

theorem textSlots_eq_some {keys : List String} {v : Value}
    {get : Nat → String → Option Value} :
    textSlots keys v = some get ↔ once keys v = true ∧ slots keys.length v = some get := by
  unfold textSlots
  split <;> simp_all

theorem mapM_eq_some {items : List Value} {as : List α} :
    items.mapM d = some as ↔ List.Forall₂ (fun v a => d v = some a) items as := by
  induction items generalizing as with
  | nil => simp [eq_comm]
  | cons v rest ih =>
    simp only [List.mapM_cons, Option.bind_eq_bind, Option.bind_eq_some_iff, ih, Option.pure_def,
      Option.some.injEq]
    constructor
    · rintro ⟨a, first, bs, others, rfl⟩
      exact .cons first others
    · intro all
      cases all with
      | cons first others => exact ⟨_, first, _, others, rfl⟩

theorem exact_vec (exact : Exact d shown) : Exact (vec d) fun as => list (as.map shown) := by
  intro v as
  have items : ∀ vs, List.Forall₂ (fun v a => d v = some a) vs as ↔
      List.Forall₂ (fun v item => item v) vs (as.map shown) := by
    intro vs
    rw [List.forall₂_map_right_iff]
    exact ⟨fun h => h.imp fun v a => (exact v a).mp, fun h => h.imp fun v a => (exact v a).mpr⟩
  cases v with
  | array vs => simp [vec, list, mapM_eq_some, items]
  | null | bool | int | string | object => simp [vec, list]

/-- A value that is missing may also be given as null. -/
def optional (shown : α → Shown) : Option α → Shown
  | none => fun v => v = .null
  | some a => fun v => v ≠ .null ∧ shown a v

theorem exact_option (exact : Exact d shown) : Exact (option d) (optional shown) := by
  intro v o
  have given : ∀ v, v ≠ .null → ((d v).map some = some o ↔ optional shown o v) := by
    intro v there
    cases o with
    | none => simp [optional, there]
    | some a => simp [optional, there, exact v a]
  cases v with
  | null => cases o <;> simp [option, optional]
  | bool | int | string | array | object => exact given _ nofun

theorem required_iff (exact : Exact d shown) {slot : Option Value} {a : α} :
    required d slot = some a ↔ InSlot (shown a) False slot := by
  cases slot with
  | none => simp [required, InSlot]
  | some v => exact exact v a

theorem withDefault_iff (exact : Exact d shown) {default : α} {slot : Option Value} {a : α} :
    withDefault d default slot = some a ↔ InSlot (shown a) (a = default) slot := by
  cases slot with
  | none => simp [withDefault, InSlot, eq_comm]
  | some v => exact exact v a

@[simp] theorem must_key {key : String} {given : Shown} : (must key given).key = key := rfl

@[simp] theorem may_key {key : String} {given : Shown} {absent : Prop} :
    (may key given absent).key = key := rfl

@[simp] theorem must_shows {key : String} {given : Shown} {slot : Option Value} :
    (must key given).Shows slot ↔ InSlot given False slot := Iff.rfl

@[simp] theorem may_shows {key : String} {given : Shown} {absent : Prop} {slot : Option Value} :
    (may key given absent).Shows slot ↔ InSlot given absent slot := Iff.rfl

theorem fields_cons {P : Nat → Field → Prop} {field : Field} {rest : List Field} :
    (∀ (i : Nat) (f : Field), (field :: rest)[i]? = some f → P i f) ↔
      P 0 field ∧ ∀ (i : Nat) (f : Field), rest[i]? = some f → P (i + 1) f := by
  constructor
  · exact fun all => ⟨all 0 field rfl, fun i f h => all (i + 1) f h⟩
  · rintro ⟨first, others⟩ i f h
    cases i with
    | zero =>
      obtain rfl := Option.some.inj h
      exact first
    | succ i => exact others i f h

end LldbDebugMcp.Core.Decode
