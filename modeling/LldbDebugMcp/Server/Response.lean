/- module: LldbDebugMcp/Server/Response
   source: crates/mcp-tools/src/{response,format,errors}.rs, handlers/{lifecycle,execution}.rs
   digest: What a handler returns: response objects, output buckets and error texts. -/

import LldbDebugMcp.Core.Types
import LldbDebugMcp.Session.Output

set_option autoImplicit false
set_option relaxedAutoImplicit false

namespace LldbDebugMcp.Server.Response

open LldbDebugMcp.Core.Types
open LldbDebugMcp.Session.Output (OutputEntry)

/-- What a tool handler wants to return. -/
inductive ToolOutcome where
  | json (value : Value)
  | text (text : String)
  | error (message : String)

/-- A field of the object that a call returns. -/
def field (key : String) : ToolOutcome → Option Value
  | .json (.object fields) => fields.lookup key
  | _ => none

/-- Set a key of an object, in place of an earlier value. -/
def setField (fields : List (String × Value)) (key : String) (value : Value) :
    List (String × Value) :=
  match fields with
  | [] => [(key, value)]
  | (k, v) :: rest => if k = key then (key, value) :: rest else (k, v) :: setField rest key value

/-- The bucket of a category: everything but the first two goes to the console. -/
def bucket (category : String) : String :=
  if category = "stdout" then "stdout"
  else if category = "stderr" then "stderr"
  else "console"

/-- The texts of one bucket, in order. -/
def bucketText (entries : List OutputEntry) (name : String) : String :=
  entries.foldl (fun text e => if bucket e.category = name then text ++ e.text else text) ""

/-- The output fields of a response: the count, and each bucket that is not empty. -/
def formatOutputEntries (entries : List OutputEntry) : List (String × Value) :=
  if entries.isEmpty then [("output", .string ""), ("count", .int 0)]
  else
    ("count", .int entries.length) ::
      (["stdout", "stderr", "console"].filter fun name => bucketText entries name ≠ "").map
        fun name => (name, .string (bucketText entries name))

/-- Merge the output fields into a response object. -/
def mergeOutput (fields : List (String × Value)) (entries : List OutputEntry) :
    List (String × Value) :=
  (formatOutputEntries entries).foldl (fun fs e => setField fs e.1 e.2) fields

private theorem bucketText_from (entries : List OutputEntry) (name text : String) :
    entries.foldl (fun text e => if bucket e.category = name then text ++ e.text else text) text =
      text ++ bucketText entries name := by
  unfold bucketText
  induction entries generalizing text with
  | nil => simp only [List.foldl_nil, String.append_empty]
  | cons e rest ih =>
    simp only [List.foldl_cons, String.empty_append]
    by_cases mine : bucket e.category = name
    · rw [if_pos mine, if_pos mine, ih, ih e.text, String.append_assoc]
    · rw [if_neg mine, if_neg mine]
      exact ih text

@[simp] theorem bucketText_nil (name : String) : bucketText [] name = "" := rfl

theorem bucketText_append (entries more : List OutputEntry) (name : String) :
    bucketText (entries ++ more) name = bucketText entries name ++ bucketText more name := by
  rw [← bucketText_from more name (bucketText entries name), bucketText, List.foldl_append]
  rfl

theorem lookup_field (key : String) (value : Value) (rest : List (String × Value)) (k : String) :
    ((key, value) :: rest).lookup k = if k = key then some value else rest.lookup k := by
  rw [List.lookup_cons]
  by_cases same : k = key
  · rw [if_pos same, beq_iff_eq.mpr same]
  · rw [if_neg same, beq_eq_false_iff_ne.mpr same]

theorem lookup_setField (fields : List (String × Value)) (key : String) (value : Value)
    (k : String) :
    (setField fields key value).lookup k = if k = key then some value else fields.lookup k := by
  induction fields with
  | nil => exact lookup_field key value [] k
  | cons field rest ih =>
    obtain ⟨k', v⟩ := field
    simp only [setField]
    by_cases here : k' = key
    · subst here
      rw [if_pos rfl, lookup_field, lookup_field]
      by_cases same : k = k'
      · rw [if_pos same, if_pos same]
      · rw [if_neg same, if_neg same, if_neg same]
    · rw [if_neg here, lookup_field, lookup_field, ih]
      by_cases same : k = k'
      · subst same
        rw [if_pos rfl, if_pos rfl, if_neg here]
      · rw [if_neg same, if_neg same]

/-- Later fields are set over those that are there. -/
theorem lookup_setFields {more : List (String × Value)} (keys : (more.map Prod.fst).Nodup)
    (fields : List (String × Value)) (k : String) :
    (more.foldl (fun fs e => setField fs e.1 e.2) fields).lookup k =
      (more.lookup k).or (fields.lookup k) := by
  induction more generalizing fields with
  | nil => rfl
  | cons e rest ih =>
    obtain ⟨key, value⟩ := e
    obtain ⟨fresh, distinct⟩ := List.nodup_cons.mp keys
    rw [List.foldl_cons, ih distinct, lookup_setField, lookup_field]
    by_cases same : k = key
    · subst same
      have absent : rest.lookup k = none := by
        refine List.lookup_eq_none_iff.mpr fun e mem => bne_iff_ne.mpr ?_
        rintro rfl
        exact fresh (List.mem_map.mpr ⟨e, mem, rfl⟩)
      rw [absent, if_pos rfl, if_pos rfl]
      rfl
    · rw [if_neg same, if_neg same]

/-- The response to a stop, before the output is merged into it. -/
def stoppedResponse (info : StopInfo) : List (String × Value) :=
  [("status", .string "stopped"),
    ("reason", .string info.reason),
    ("thread_id", .int info.threadId),
    ("description", .string info.description)] ++
  if info.hitBreakpointIds.isEmpty then []
  else [("hit_breakpoint_ids", .array (info.hitBreakpointIds.map .int))]

/-- The text after the first occurrence of a separator. -/
def stripAfterList (sep : List Char) : List Char → Option (List Char)
  | [] => if sep.isEmpty then some [] else none
  | c :: rest =>
    if sep.isPrefixOf (c :: rest) then some ((c :: rest).drop sep.length)
    else stripAfterList sep rest

def stripAfter (s sep : String) : Option String :=
  (stripAfterList sep.toList s.toList).map String.ofList

/-- The text before and after the first occurrence of a character. -/
def splitOnceList (c : Char) : List Char → Option (List Char × List Char)
  | [] => none
  | d :: rest =>
    if d = c then some ([], rest) else (splitOnceList c rest).map fun (a, b) => (d :: a, b)

def splitOnce (s : String) (c : Char) : Option (String × String) :=
  (splitOnceList c s.toList).map fun (a, b) => (String.ofList a, String.ofList b)

/-- The error texts of one tool call site. -/
structure OpError where
  requestFailed : String
  unexpected : String
  failed : String

namespace OpError

/-- Put a `Dap` message under the verbs of this call site. -/
def renderDap (o : OpError) (message : String) : String :=
  match stripAfter message " request failed: " with
  | some inner => o.requestFailed ++ inner
  | none =>
    match stripAfter message " failed: " with
    | some inner => o.failed ++ inner
    | none => message

def render (o : OpError) : BackendError → String
  | .send inner => o.requestFailed ++ inner
  | .closed => o.requestFailed ++ "connection closed"
  | .timeout => o.requestFailed ++ "operation timed out"
  | .detect m => o.requestFailed ++ m
  | .spawn m => o.requestFailed ++ m
  | .dap message => o.renderDap message
  | .protocol ty =>
    match splitOnce ty ':' with
    | some (_, label) => o.unexpected ++ label
    | none => o.unexpected ++ ty

/-- The texts of a call site whose three templates share one verb. -/
def ofVerb (verb : String) : OpError :=
  ⟨verb ++ " request failed: ", "unexpected " ++ verb ++ " response type: ", verb ++ " failed: "⟩

def continueOp : OpError := ofVerb "continue"
def stepOver : OpError := ofVerb "step over"
def stepInto : OpError := ofVerb "step into"
def stepOut : OpError := ofVerb "step out"
def pauseOp : OpError := ofVerb "pause"

end OpError

/-- The texts of a `connect()` failure. -/
def connectError : BackendError → String
  | .detect m => "failed to find lldb-dap: " ++ m
  | .spawn m => "failed to spawn lldb-dap: " ++ m
  | other => other.display

/-- The texts of a launch or attach failure: the backend has phrased most of them. -/
def handshakeError : BackendError → String
  | .dap message => message
  | .protocol ty =>
    match splitOnce ty ':' with
    | some (op, label) => "unexpected " ++ op ++ " response type: " ++ label
    | none => "unexpected response type: " ++ ty
  | .closed => "connection closed"
  | other => other.display

end LldbDebugMcp.Server.Response
