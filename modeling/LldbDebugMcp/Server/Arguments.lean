/- module: LldbDebugMcp/Server/Arguments
   source: crates/mcp-tools/src/args.rs
   digest: The accessors over a call's arguments, with the texts of their errors. -/

import Mathlib.Algebra.Group.Int.Defs
import Mathlib.Data.List.AList

set_option autoImplicit false
set_option relaxedAutoImplicit false

namespace LldbDebugMcp.Server.Arguments

/-- A JSON argument; of a number, its value as `f64`, which is what the accessors read. -/
inductive Argument where
  | null
  | bool (b : Bool)
  | number (value : Rat)
  | string (s : String)
  | array
  | object
  deriving DecidableEq, Repr

/-- The cast of an `f64` to an `i64`: towards zero, and to the nearest bound beyond the range. -/
def castI64 (value : Rat) : Int :=
  max (-2 ^ 63) (min (2 ^ 63 - 1) (value.num.tdiv value.den))

/-- The arguments of a call. -/
structure Args where
  map : AList (fun _ : String => Argument)

def missingRequired (detail : String) : String := "missing required parameter: " ++ detail

def notFound (key : String) : String := "required argument \"" ++ key ++ "\" not found"

def notOfType (key ty : String) : String :=
  "argument \"" ++ key ++ "\" is not of type " ++ ty

def notPositive (key : String) : String := "'" ++ key ++ "' must be a positive integer"

/-- What serde_json makes of a text: a list of strings, or an object. -/
structure Serde where
  array : String → Except String (List String)
  object : String → Except String (List (String × Argument))

/-- The kind of a JSON value, as an error names it. -/
def jsonTypeName : Argument → String
  | .null => "null"
  | .bool _ => "bool"
  | .number _ => "number"
  | .string _ => "string"
  | .array => "array"
  | .object => "object"

def asObject (key : String) : String := "failed to parse '" ++ key ++ "' as JSON object: "

/-- The fields of an object of strings, or an error about the first field that is none. -/
def stringFields (key : String) : List (String × Argument) → Except String (List (String × String))
  | [] => .ok []
  | (k, .string v) :: rest => (stringFields key rest).map ((k, v) :: ·)
  | (_, other) :: _ =>
    .error (asObject key ++ "cannot unmarshal " ++ jsonTypeName other ++
      " into Go value of type string")

namespace Args

def getRaw (args : Args) (key : String) : Option Argument := args.map.lookup key

def requireString (args : Args) (key : String) : Except String String :=
  match args.getRaw key with
  | none => .error (missingRequired (notFound key))
  | some (.string s) => .ok s
  | some _ => .error (missingRequired (notOfType key "string"))

def requireInt (args : Args) (key : String) : Except String Int :=
  match args.getRaw key with
  | none => .error (missingRequired (notFound key))
  | some (.number value) => .ok (castI64 value)
  | some _ => .error (missingRequired (notOfType key "int"))

def getString (args : Args) (key default : String) : String :=
  match args.getRaw key with
  | some (.string s) => s
  | _ => default

def getF64 (args : Args) (key : String) : Option Rat :=
  match args.getRaw key with
  | some (.number value) => some value
  | _ => none

def requirePositiveInt (args : Args) (key : String) : Except String Int :=
  match args.requireInt key with
  | .error e => .error e
  | .ok value => if value ≤ 0 then .error (notPositive key) else .ok value

/-- A numeric thread id must be positive; what is not a number counts as absent. -/
def explicitPositiveThreadId (args : Args) : Except String (Option Int) :=
  match args.getF64 "thread_id" with
  | some value =>
    if castI64 value ≤ 0 then .error (notPositive "thread_id") else .ok (some (castI64 value))
  | none => .ok none

def getBool (args : Args) (key : String) (default : Bool) : Bool :=
  match args.getRaw key with
  | some (.bool b) => b
  | _ => default

/-- A value that is there and not null. -/
def present (args : Args) (key : String) : Option Argument :=
  (args.getRaw key).filter fun v => v ≠ .null

def parseJsonArray (args : Args) (serde : Serde) (key : String) : Except String (List String) :=
  match args.present key with
  | none => .ok []
  | some (.string s) =>
    (serde.array s).mapError fun e => "failed to parse '" ++ key ++ "' as JSON array: " ++ e
  | some _ =>
    .error ("'" ++ key ++ "' must be a JSON array string, e.g. '[\"--flag\", \"value\"]'")

def parseJsonObject (args : Args) (serde : Serde) (key : String) :
    Except String (List (String × String)) :=
  match args.present key with
  | none => .ok []
  | some (.string s) => do
    stringFields key (← (serde.object s).mapError fun e => asObject key ++ e)
  | some _ =>
    .error ("'" ++ key ++ "' must be a JSON object string, e.g. '\x7b\"KEY\": \"value\"\x7d'")

theorem requirePositiveInt_pos {args : Args} {key : String} {n : Int}
    (ok : args.requirePositiveInt key = .ok n) : 0 < n := by
  unfold requirePositiveInt at ok
  split at ok
  · cases ok
  · split at ok
    · cases ok
    · rename_i positive
      obtain rfl := Except.ok.inj ok
      exact Int.not_le.mp positive

end Args

end LldbDebugMcp.Server.Arguments
