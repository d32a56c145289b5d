/- module: LldbDebugMcp/Backend/Answers
   source: crates/lldb-backend/src/{body,requests}.rs
   digest: What a debuggee is asked over the wire, and how its answers are written. -/

import LldbDebugMcp.Library.Base64
import LldbDebugMcp.Client.Message
import LldbDebugMcp.Backend.Body

set_option autoImplicit false
set_option relaxedAutoImplicit false

namespace LldbDebugMcp.Backend.Answers

open LldbDebugMcp.Core.Types
open LldbDebugMcp.Core.Decode
open LldbDebugMcp.Client.Message
open LldbDebugMcp.Library
open LldbDebugMcp.Backend
open LldbDebugMcp.Backend.Body (DapStackFrame DapInstruction)
open LldbDebugMcp.Server.Breakpoints (BreakpointResult)

/-- What an adapter can be asked about its debuggee. -/
inductive Query where
  | setBreakpoints (file : String) (bps : List SourceBp)
  | setFunctionBreakpoints (bps : List FunctionBp)
  | threads
  | stackTrace (threadId start levels : Int)
  | scopes (frameId : Int)
  | variableList (variablesReference : Int)
  | evaluate (expression : String) (frameId : Option Int) (context : String)
  | readMemory (address : String) (count : Int)
  | disassemble (address : String) (count : Int)

namespace Query

@[reducible] def Answer : Query → Type
  | .setBreakpoints .. | .setFunctionBreakpoints _ => List BreakpointResult
  | .threads => List ThreadInfo
  | .stackTrace .. => List Frame × Int
  | .scopes _ => List Scope
  | .variableList _ => List Variable
  | .evaluate .. => EvalResult
  | .readMemory .. => MemoryRead
  | .disassemble .. => List Instruction

/-- The DAP command. -/
def command : Query → String
  | .setBreakpoints .. => "setBreakpoints"
  | .setFunctionBreakpoints _ => "setFunctionBreakpoints"
  | .threads => "threads"
  | .stackTrace .. => "stackTrace"
  | .scopes _ => "scopes"
  | .variableList _ => "variables"
  | .evaluate .. => "evaluate"
  | .readMemory .. => "readMemory"
  | .disassemble .. => "disassemble"

/-- The bodies that present an answer. -/
def Shows : (q : Query) → q.Answer → Shown
  | .setBreakpoints .., bps => Body.showList "breakpoints" Body.showBreakpoint bps
  | .setFunctionBreakpoints _, bps => Body.showList "breakpoints" Body.showBreakpoint bps
  | .threads, ts => Body.showList "threads" Body.showThread ts
  | .stackTrace .., (frames, total) => fun v =>
    ∃ raw, Body.showStackTrace (raw, total) v ∧ (raw.mapIdx fun i f => f.toFrame i) = frames
  | .scopes _, ss => Body.showList "scopes" Body.showScope ss
  | .variableList _, xs => Body.showList "variables" Body.showVariable xs
  | .evaluate .., r => Body.showEvaluate r
  | .readMemory .., m =>
    Body.showMemory (m.address, String.ofList (Base64.encode m.data))
  | .disassemble .., insts => fun v =>
    ∃ raw, Body.showList "instructions" Body.showInstruction raw v ∧
      raw.map (·.toInstruction) = insts

end Query

/-- A debuggee: what it answers to each query, or why it refuses. -/
abbrev Debuggee := (q : Query) → Except String q.Answer

/-! How an adapter reads a request. -/

def number : Decoder Int
  | .int n => some n
  | _ => none

/-- An argument of a request. -/
def argument {α : Type} (request : Request) (key : String) (d : Decoder α) : Option α :=
  match request.arguments with
  | some (.object fields) => (fields.lookup key).bind d
  | _ => none

/-- A breakpoint entry: its key field, and a condition that may be missing. -/
def entry {α β : Type} (key : String) (d : Decoder α) (make : α → String → β) : Decoder β
  | .object fields => do
    let value ← (fields.lookup key).bind d
    let condition ← withDefault text "" (fields.lookup "condition")
    return make value condition
  | _ => none

def sourcePath : Decoder String
  | .object fields => (fields.lookup "path").bind text
  | _ => none

/-- What a request asks for. -/
def asked (request : Request) : Option Query :=
  match request.command with
  | "setBreakpoints" => do
    return .setBreakpoints (← argument request "source" sourcePath)
      (← argument request "breakpoints" (vec (entry "line" number SourceBp.mk)))
  | "setFunctionBreakpoints" => do
    return .setFunctionBreakpoints
      (← argument request "breakpoints" (vec (entry "name" text FunctionBp.mk)))
  | "threads" => some .threads
  | "stackTrace" => do
    return .stackTrace (← argument request "threadId" number)
      (← argument request "startFrame" number) (← argument request "levels" number)
  | "scopes" => do return .scopes (← argument request "frameId" number)
  | "variables" => do return .variableList (← argument request "variablesReference" number)
  | "evaluate" => do
    return .evaluate (← argument request "expression" text) (argument request "frameId" number)
      (← argument request "context" text)
  | "readMemory" => do
    return .readMemory (← argument request "memoryReference" text)
      (← argument request "count" number)
  | "disassemble" => do
    return .disassemble (← argument request "memoryReference" text)
      (← argument request "instructionCount" number)
  | _ => none

/-! Each datum with all its fields. -/

def encodeSource : Option String → Value
  | none => .null
  | some path => .object [("path", .string path)]

def encodeStackFrame (f : DapStackFrame) : Value :=
  .object [("id", .int f.id), ("name", .string f.name), ("source", encodeSource f.source),
    ("line", .int f.line),
    ("instructionPointerReference", .string f.instructionPointerReference)]

def encodeThread (t : ThreadInfo) : Value :=
  .object [("id", .int t.id), ("name", .string t.name)]

def encodeScope (s : Scope) : Value :=
  .object [("name", .string s.name), ("variablesReference", .int s.variablesReference)]

def encodeVariable (x : Variable) : Value :=
  .object [("name", .string x.name), ("value", .string x.value), ("type", .string x.ty),
    ("variablesReference", .int x.variablesReference), ("namedVariables", .int x.named),
    ("indexedVariables", .int x.indexed)]

def encodeEvaluate (r : EvalResult) : Value :=
  .object [("result", .string r.result), ("type", .string r.ty),
    ("variablesReference", .int r.variablesReference)]

def encodeMemory (m : MemoryRead) : Value :=
  .object [("address", .string m.address),
    ("data", .string (String.ofList (Base64.encode m.data)))]

def encodeInstruction (i : DapInstruction) : Value :=
  .object [("address", .string i.address), ("instruction", .string i.instruction),
    ("instructionBytes", .string i.instructionBytes), ("symbol", .string i.symbol),
    ("location", encodeSource i.location), ("line", .int i.line)]

def encodeBreakpoint (b : BreakpointResult) : Value :=
  .object [("id", .int b.id), ("verified", .bool b.verified), ("line", .int b.line),
    ("message", .string b.message)]

def encodeList {α : Type} (key : String) (item : α → Value) (items : List α) : Value :=
  .object [(key, .array (items.map item))]

/-- The DAP frame of a frame. -/
def rawFrame (f : Frame) : DapStackFrame where
  id := f.id
  name := f.name
  source := f.sourcePath
  line := f.line
  instructionPointerReference := f.instructionPointer.getD ""

def rawInstruction (i : Instruction) : DapInstruction where
  address := i.address
  instruction := i.instruction
  instructionBytes := i.bytes
  symbol := i.symbol
  location := i.sourcePath
  line := i.line

/-- The body that an answer is written in. -/
def encode : (q : Query) → q.Answer → Value
  | .setBreakpoints .., bps => encodeList "breakpoints" encodeBreakpoint bps
  | .setFunctionBreakpoints _, bps => encodeList "breakpoints" encodeBreakpoint bps
  | .threads, ts => encodeList "threads" encodeThread ts
  | .stackTrace .., (frames, total) =>
    .object [("stackFrames", .array ((frames.map rawFrame).map encodeStackFrame)),
      ("totalFrames", .int total)]
  | .scopes _, ss => encodeList "scopes" encodeScope ss
  | .variableList _, xs => encodeList "variables" encodeVariable xs
  | .evaluate .., r => encodeEvaluate r
  | .readMemory .., m => encodeMemory m
  | .disassemble .., insts =>
    encodeList "instructions" encodeInstruction (insts.map rawInstruction)

/-- The answers that can be written: numbers are `i64`, the frames are numbered by their
positions, and a path or an instruction pointer that is there is not empty. -/
def Fits : (q : Query) → q.Answer → Prop
  | .setBreakpoints .., bps | .setFunctionBreakpoints _, bps =>
    ∀ b ∈ bps, InI64 b.id ∧ InI64 b.line
  | .threads, ts => ∀ t ∈ ts, InI64 t.id
  | .stackTrace .., (frames, total) => InI64 total ∧
    ∀ (i : Nat) (f : Frame), frames[i]? = some f → f.index = i ∧ InI64 f.id ∧ InI64 f.line ∧
      f.sourcePath ≠ some "" ∧ f.instructionPointer ≠ some ""
  | .scopes _, ss => ∀ s ∈ ss, InI64 s.variablesReference
  | .variableList _, xs =>
    ∀ x ∈ xs, InI64 x.variablesReference ∧ InI64 x.named ∧ InI64 x.indexed
  | .evaluate .., r => InI64 r.variablesReference
  | .readMemory .., _ => True
  | .disassemble .., insts => ∀ i ∈ insts, InI64 i.line ∧ i.sourcePath ≠ some ""

theorem shows_source (path : String) : Body.showSource path (.object [("path", .string path)]) :=
  ⟨_, rfl, fields_cons.mpr ⟨rfl, nofun⟩⟩

theorem shows_encodeSource : (o : Option String) →
    optional Body.showSource o (encodeSource o)
  | none => rfl
  | some path => ⟨nofun, shows_source path⟩

theorem shows_encodeStackFrame {f : DapStackFrame} (id : InI64 f.id) (line : InI64 f.line) :
    Body.showStackFrame f (encodeStackFrame f) :=
  ⟨_, rfl, fields_cons.mpr ⟨⟨rfl, id⟩, fields_cons.mpr ⟨rfl, fields_cons.mpr
    ⟨shows_encodeSource f.source, fields_cons.mpr ⟨⟨rfl, line⟩, fields_cons.mpr ⟨rfl, nofun⟩⟩⟩⟩⟩⟩

theorem shows_encodeThread {t : ThreadInfo} (id : InI64 t.id) :
    Body.showThread t (encodeThread t) :=
  ⟨_, rfl, fields_cons.mpr ⟨⟨rfl, id⟩, fields_cons.mpr ⟨rfl, nofun⟩⟩⟩

theorem shows_encodeScope {s : Scope} (reference : InI64 s.variablesReference) :
    Body.showScope s (encodeScope s) :=
  ⟨_, rfl, fields_cons.mpr ⟨rfl, fields_cons.mpr ⟨⟨rfl, reference⟩, nofun⟩⟩⟩

theorem shows_encodeVariable {x : Variable} (reference : InI64 x.variablesReference)
    (named : InI64 x.named) (indexed : InI64 x.indexed) :
    Body.showVariable x (encodeVariable x) :=
  ⟨_, rfl, fields_cons.mpr ⟨rfl, fields_cons.mpr ⟨rfl, fields_cons.mpr ⟨rfl, fields_cons.mpr
    ⟨⟨rfl, reference⟩, fields_cons.mpr ⟨⟨rfl, named⟩, fields_cons.mpr ⟨⟨rfl, indexed⟩, nofun⟩⟩⟩⟩⟩⟩⟩

theorem shows_encodeEvaluate {r : EvalResult} (reference : InI64 r.variablesReference) :
    Body.showEvaluate r (encodeEvaluate r) :=
  ⟨_, rfl, fields_cons.mpr ⟨rfl, fields_cons.mpr ⟨rfl, fields_cons.mpr ⟨⟨rfl, reference⟩, nofun⟩⟩⟩⟩

theorem shows_encodeInstruction {i : DapInstruction} (line : InI64 i.line) :
    Body.showInstruction i (encodeInstruction i) :=
  ⟨_, rfl, fields_cons.mpr ⟨rfl, fields_cons.mpr ⟨rfl, fields_cons.mpr ⟨rfl, fields_cons.mpr
    ⟨rfl, fields_cons.mpr ⟨shows_encodeSource i.location, fields_cons.mpr ⟨⟨rfl, line⟩, nofun⟩⟩⟩⟩⟩⟩⟩

theorem shows_encodeBreakpoint {b : BreakpointResult} (id : InI64 b.id) (line : InI64 b.line) :
    Body.showBreakpoint b (encodeBreakpoint b) :=
  ⟨_, rfl, fields_cons.mpr ⟨⟨rfl, id⟩, fields_cons.mpr ⟨rfl, fields_cons.mpr
    ⟨⟨rfl, line⟩, fields_cons.mpr ⟨rfl, nofun⟩⟩⟩⟩⟩

theorem shows_items {α : Type} {shown : α → Shown} {item : α → Value} {items : List α}
    (all : ∀ a ∈ items, shown a (item a)) :
    list (items.map shown) (.array (items.map item)) := by
  refine ⟨_, rfl, ?_⟩
  rw [List.forall₂_map_left_iff, List.forall₂_map_right_iff]
  exact List.forall₂_same.mpr all

theorem shows_encodeList {α : Type} {key : String} {shown : α → Shown} {item : α → Value}
    {items : List α} (all : ∀ a ∈ items, shown a (item a)) :
    Body.showList key shown items (encodeList key item items) := by
  refine ⟨_, rfl, fields_cons.mpr ⟨?_, nofun⟩⟩
  have found : List.lookup key [(key, Value.array (items.map item))] =
      some (.array (items.map item)) := by
    rw [List.lookup_cons, beq_self_eq_true]
  simp only [may_shows, may_key, found]
  exact shows_items all

theorem nonempty_eq {o : Option String} (full : o ≠ some "") : Body.nonempty o = o := by
  cases o with
  | none => rfl
  | some s =>
    have some_chars : s.isEmpty = false := by
      rw [Bool.eq_false_iff]
      intro empty
      exact full (congrArg some (String.isEmpty_iff.mp empty))
    simp [Body.nonempty, some_chars]

theorem toFrame_rawFrame {f : Frame} (source : f.sourcePath ≠ some "")
    (ip : f.instructionPointer ≠ some "") : (rawFrame f).toFrame f.index = f := by
  obtain ⟨index, id, name, sourcePath, line, instructionPointer⟩ := f
  have kept : Body.nonempty (some (instructionPointer.getD "")) = instructionPointer := by
    cases instructionPointer with
    | none => rfl
    | some text => exact nonempty_eq ip
  simp only [rawFrame, DapStackFrame.toFrame, kept, nonempty_eq source]

/-- What fits is written in a body that presents it. -/
theorem shows_encode : (q : Query) → (answer : q.Answer) → Fits q answer →
    q.Shows answer (encode q answer)
  | .setBreakpoints .., _, fits | .setFunctionBreakpoints _, _, fits =>
    shows_encodeList fun b mem => shows_encodeBreakpoint (fits b mem).1 (fits b mem).2
  | .threads, _, fits => shows_encodeList fun t mem => shows_encodeThread (fits t mem)
  | .stackTrace .., (frames, total), fits => by
    refine ⟨frames.map rawFrame, ⟨_, rfl, fields_cons.mpr ⟨shows_items fun raw mem => ?_,
      fields_cons.mpr ⟨⟨rfl, fits.1⟩, nofun⟩⟩⟩, ?_⟩
    · obtain ⟨f, there, rfl⟩ := List.mem_map.mp mem
      obtain ⟨i, here⟩ := List.mem_iff_getElem?.mp there
      obtain ⟨-, id, line, -⟩ := fits.2 i f here
      exact shows_encodeStackFrame id line
    · refine List.ext_getElem? fun i => ?_
      rw [List.getElem?_mapIdx, List.getElem?_map]
      cases here : frames[i]? with
      | none => rfl
      | some f =>
        obtain ⟨index, -, -, source, ip⟩ := fits.2 i f here
        exact congrArg some (index ▸ toFrame_rawFrame source ip)
  | .scopes _, _, fits => shows_encodeList fun s mem => shows_encodeScope (fits s mem)
  | .variableList _, _, fits => shows_encodeList fun x mem =>
    shows_encodeVariable (fits x mem).1 (fits x mem).2.1 (fits x mem).2.2
  | .evaluate .., _, fits => shows_encodeEvaluate fits
  | .readMemory .., _, _ => ⟨_, rfl, fields_cons.mpr ⟨rfl, fields_cons.mpr ⟨rfl, nofun⟩⟩⟩
  | .disassemble .., insts, fits => by
    refine ⟨insts.map rawInstruction, shows_encodeList fun raw mem => ?_, ?_⟩
    · obtain ⟨i, there, rfl⟩ := List.mem_map.mp mem
      exact shows_encodeInstruction (fits i there).1
    · rw [List.map_map]
      refine (List.map_congr_left fun i mem => ?_).trans (List.map_id insts)
      obtain ⟨address, instruction, bytes, symbol, sourcePath, line⟩ := i
      simp only [Function.comp_apply, rawInstruction, DapInstruction.toInstruction,
        nonempty_eq (fits _ mem).2, id_eq]

end LldbDebugMcp.Backend.Answers
