/- module: LldbDebugMcp/Backend/Body
   source: crates/lldb-backend/src/body.rs
   digest: The typed decoding of response bodies, and which bodies each decoder accepts. -/

import LldbDebugMcp.Core.Decode
import LldbDebugMcp.Server.Breakpoints

set_option autoImplicit false
set_option relaxedAutoImplicit false

namespace LldbDebugMcp.Backend.Body

open LldbDebugMcp.Core.Types
open LldbDebugMcp.Core.Decode
open LldbDebugMcp.Server.Breakpoints (BreakpointResult)

/-- The path of a source reference. -/
def dapSource : Decoder String := fun v => do
  let get ← slots 1 v
  withDefault text "" (get 0 "path")

structure DapStackFrame where
  id : Int
  name : String
  source : Option String
  line : Int
  instructionPointerReference : String

def dapStackFrame : Decoder DapStackFrame := fun v => do
  let get ← slots 5 v
  let id ← required i64 (get 0 "id")
  let name ← withDefault text "" (get 1 "name")
  let source ← withDefault (option dapSource) none (get 2 "source")
  let line ← withDefault i64 0 (get 3 "line")
  let instructionPointerReference ← withDefault text "" (get 4 "instructionPointerReference")
  return ⟨id, name, source, line, instructionPointerReference⟩

def stackTraceBody : Decoder (List DapStackFrame × Int) := fun v => do
  let get ← slots 2 v
  let stackFrames ← withDefault (vec dapStackFrame) [] (get 0 "stackFrames")
  let totalFrames ← withDefault i64 0 (get 1 "totalFrames")
  return (stackFrames, totalFrames)

def dapThread : Decoder ThreadInfo := fun v => do
  let get ← slots 2 v
  let id ← required i64 (get 0 "id")
  let name ← withDefault text "" (get 1 "name")
  return ⟨id, name⟩

/-- A body with one field, a list that may be missing. -/
def listBody {α : Type} (key : String) (item : Decoder α) : Decoder (List α) := fun v => do
  let get ← slots 1 v
  withDefault (vec item) [] (get 0 key)

def threadsBody : Decoder (List ThreadInfo) := listBody "threads" dapThread

def dapScope : Decoder Scope := fun v => do
  let get ← slots 2 v
  let name ← withDefault text "" (get 0 "name")
  let variablesReference ← withDefault i64 0 (get 1 "variablesReference")
  return ⟨name, variablesReference⟩

def scopesBody : Decoder (List Scope) := listBody "scopes" dapScope

def dapVariable : Decoder Variable := fun v => do
  let get ← slots 6 v
  let name ← withDefault text "" (get 0 "name")
  let value ← withDefault text "" (get 1 "value")
  let ty ← withDefault text "" (get 2 "type")
  let variablesReference ← withDefault i64 0 (get 3 "variablesReference")
  let named ← withDefault i64 0 (get 4 "namedVariables")
  let indexed ← withDefault i64 0 (get 5 "indexedVariables")
  return ⟨name, value, ty, variablesReference, named, indexed⟩

def variablesBody : Decoder (List Variable) := listBody "variables" dapVariable

def evaluateBody : Decoder EvalResult := fun v => do
  let get ← slots 3 v
  let result ← withDefault text "" (get 0 "result")
  let ty ← withDefault text "" (get 1 "type")
  let variablesReference ← withDefault i64 0 (get 2 "variablesReference")
  return ⟨result, ty, variablesReference⟩

/-- The address and the encoded data. -/
def readMemoryBody : Decoder (String × String) := fun v => do
  let get ← slots 2 v
  let address ← withDefault text "" (get 0 "address")
  let data ← withDefault text "" (get 1 "data")
  return (address, data)

structure DapInstruction where
  address : String
  instruction : String
  instructionBytes : String
  symbol : String
  location : Option String
  line : Int

def dapInstruction : Decoder DapInstruction := fun v => do
  let get ← slots 6 v
  let address ← withDefault text "" (get 0 "address")
  let instruction ← withDefault text "" (get 1 "instruction")
  let instructionBytes ← withDefault text "" (get 2 "instructionBytes")
  let symbol ← withDefault text "" (get 3 "symbol")
  let location ← withDefault (option dapSource) none (get 4 "location")
  let line ← withDefault i64 0 (get 5 "line")
  return ⟨address, instruction, instructionBytes, symbol, location, line⟩

def disassembleBody : Decoder (List DapInstruction) := listBody "instructions" dapInstruction

def dapBreakpoint : Decoder BreakpointResult := fun v => do
  let get ← slots 4 v
  let id ← withDefault i64 0 (get 0 "id")
  let verified ← withDefault flag false (get 1 "verified")
  let line ← withDefault i64 0 (get 2 "line")
  let message ← withDefault text "" (get 3 "message")
  return ⟨id, verified, line, message⟩

def setBreakpointsBody : Decoder (List BreakpointResult) := listBody "breakpoints" dapBreakpoint

section

variable (describe : Value → String) {α : Type}

/-- Decode a body; a missing one is an empty object. -/
def decode (d : Decoder α) (body : Option Value) : Except BackendError α :=
  let value := body.getD (.object [])
  match d value with
  | some parsed => .ok parsed
  | none => .error (.dap ("malformed response body: " ++ describe value))

/-- A text that is there and not empty. -/
def nonempty (text : Option String) : Option String := text.filter fun s => !s.isEmpty

def DapStackFrame.toFrame (index : Int) (f : DapStackFrame) : Frame where
  index := index
  id := f.id
  name := f.name
  sourcePath := nonempty f.source
  line := f.line
  instructionPointer := nonempty (some f.instructionPointerReference)

/-- The frames with their positions, and how many there are in all. -/
def stackTrace (body : Option Value) : Except BackendError (List Frame × Int) :=
  (decode describe stackTraceBody body).map fun parsed =>
    (parsed.1.mapIdx fun i f => f.toFrame i, parsed.2)

def threads (body : Option Value) : Except BackendError (List ThreadInfo) :=
  decode describe threadsBody body

def scopes (body : Option Value) : Except BackendError (List Scope) :=
  decode describe scopesBody body

def variableList (body : Option Value) : Except BackendError (List Variable) :=
  decode describe variablesBody body

def evaluate (body : Option Value) : Except BackendError EvalResult :=
  decode describe evaluateBody body

/-- The bytes of a memory body; the decoder of the base64 crate is a parameter. -/
def memoryData (base64 : String → Except String (List UInt8)) (data : String) :
    Except BackendError (List UInt8) :=
  if data.isEmpty then .ok []
  else (base64 data).mapError fun e => .dap ("failed to decode memory data: " ++ e)

def readMemory (base64 : String → Except String (List UInt8)) (body : Option Value) :
    Except BackendError MemoryRead := do
  let parsed ← decode describe readMemoryBody body
  let data ← memoryData base64 parsed.2
  return ⟨parsed.1, data⟩

def DapInstruction.toInstruction (i : DapInstruction) : Instruction where
  address := i.address
  instruction := i.instruction
  bytes := i.instructionBytes
  symbol := i.symbol
  sourcePath := nonempty i.location
  line := i.line

def disassemble (body : Option Value) : Except BackendError (List Instruction) :=
  (decode describe disassembleBody body).map fun parsed => parsed.map (·.toInstruction)

def breakpoints (body : Option Value) : Except BackendError (List BreakpointResult) :=
  decode describe setBreakpointsBody body

end

/-! Which values present what is decoded. -/

def showSource (path : String) : Shown := record [may "path" (string path) (path = "")]

def showStackFrame (f : DapStackFrame) : Shown :=
  record [must "id" (int f.id), may "name" (string f.name) (f.name = ""),
    may "source" (optional showSource f.source) (f.source = none),
    may "line" (int f.line) (f.line = 0),
    may "instructionPointerReference" (string f.instructionPointerReference)
      (f.instructionPointerReference = "")]

def showThread (t : ThreadInfo) : Shown :=
  record [must "id" (int t.id), may "name" (string t.name) (t.name = "")]

def showScope (s : Scope) : Shown :=
  record [may "name" (string s.name) (s.name = ""),
    may "variablesReference" (int s.variablesReference) (s.variablesReference = 0)]

def showVariable (x : Variable) : Shown :=
  record [may "name" (string x.name) (x.name = ""), may "value" (string x.value) (x.value = ""),
    may "type" (string x.ty) (x.ty = ""),
    may "variablesReference" (int x.variablesReference) (x.variablesReference = 0),
    may "namedVariables" (int x.named) (x.named = 0),
    may "indexedVariables" (int x.indexed) (x.indexed = 0)]

def showEvaluate (r : EvalResult) : Shown :=
  record [may "result" (string r.result) (r.result = ""), may "type" (string r.ty) (r.ty = ""),
    may "variablesReference" (int r.variablesReference) (r.variablesReference = 0)]

def showMemory (m : String × String) : Shown :=
  record [may "address" (string m.1) (m.1 = ""), may "data" (string m.2) (m.2 = "")]

def showInstruction (i : DapInstruction) : Shown :=
  record [may "address" (string i.address) (i.address = ""),
    may "instruction" (string i.instruction) (i.instruction = ""),
    may "instructionBytes" (string i.instructionBytes) (i.instructionBytes = ""),
    may "symbol" (string i.symbol) (i.symbol = ""),
    may "location" (optional showSource i.location) (i.location = none),
    may "line" (int i.line) (i.line = 0)]

def showBreakpoint (b : BreakpointResult) : Shown :=
  record [may "id" (int b.id) (b.id = 0), may "verified" (bool b.verified) (b.verified = false),
    may "line" (int b.line) (b.line = 0), may "message" (string b.message) (b.message = "")]

/-- A body that is a list under a key. -/
def showList {α : Type} (key : String) (item : α → Shown) (items : List α) : Shown :=
  record [may key (list (items.map item)) (items = [])]

def showStackTrace (trace : List DapStackFrame × Int) : Shown :=
  record [may "stackFrames" (list (trace.1.map showStackFrame)) (trace.1 = []),
    may "totalFrames" (int trace.2) (trace.2 = 0)]

theorem exact_dapSource : Exact dapSource showSource := by
  intro v path
  simp [dapSource, showSource, record, Option.bind_eq_some_iff, withDefault_iff exact_text,
    fields_cons]

theorem exact_dapStackFrame : Exact dapStackFrame showStackFrame := by
  rintro v ⟨id, name, source, line, ip⟩
  simp [dapStackFrame, showStackFrame, record, Option.bind_eq_some_iff,
    withDefault_iff exact_text, withDefault_iff exact_i64, required_iff exact_i64,
    withDefault_iff (exact_option exact_dapSource), fields_cons]

theorem exact_stackTraceBody : Exact stackTraceBody showStackTrace := by
  rintro v ⟨frames, total⟩
  simp [stackTraceBody, showStackTrace, record, Option.bind_eq_some_iff,
    withDefault_iff (exact_vec exact_dapStackFrame), withDefault_iff exact_i64, fields_cons]

theorem exact_listBody {α : Type} {key : String} {item : Decoder α} {shown : α → Shown}
    (exact : Exact item shown) : Exact (listBody key item) (showList key shown) := by
  intro v items
  simp [listBody, showList, record, Option.bind_eq_some_iff, withDefault_iff (exact_vec exact),
    fields_cons]

theorem exact_dapThread : Exact dapThread showThread := by
  rintro v ⟨id, name⟩
  simp [dapThread, showThread, record, Option.bind_eq_some_iff, withDefault_iff exact_text,
    required_iff exact_i64, fields_cons]

theorem exact_dapScope : Exact dapScope showScope := by
  rintro v ⟨name, reference⟩
  simp [dapScope, showScope, record, Option.bind_eq_some_iff, withDefault_iff exact_text,
    withDefault_iff exact_i64, fields_cons]

theorem exact_dapVariable : Exact dapVariable showVariable := by
  rintro v ⟨name, value, ty, reference, named, indexed⟩
  simp [dapVariable, showVariable, record, Option.bind_eq_some_iff, withDefault_iff exact_text,
    withDefault_iff exact_i64, fields_cons]

theorem exact_evaluateBody : Exact evaluateBody showEvaluate := by
  rintro v ⟨result, ty, reference⟩
  simp [evaluateBody, showEvaluate, record, Option.bind_eq_some_iff, withDefault_iff exact_text,
    withDefault_iff exact_i64, fields_cons]

theorem exact_readMemoryBody : Exact readMemoryBody showMemory := by
  rintro v ⟨address, data⟩
  simp [readMemoryBody, showMemory, record, Option.bind_eq_some_iff, withDefault_iff exact_text,
    fields_cons]

theorem exact_dapInstruction : Exact dapInstruction showInstruction := by
  rintro v ⟨address, instruction, bytes, symbol, location, line⟩
  simp [dapInstruction, showInstruction, record, Option.bind_eq_some_iff,
    withDefault_iff exact_text, withDefault_iff exact_i64,
    withDefault_iff (exact_option exact_dapSource), fields_cons]

theorem exact_dapBreakpoint : Exact dapBreakpoint showBreakpoint := by
  rintro v ⟨id, verified, line, message⟩
  simp [dapBreakpoint, showBreakpoint, record, Option.bind_eq_some_iff,
    withDefault_iff exact_text, withDefault_iff exact_i64, withDefault_iff exact_flag,
    fields_cons, -Bool.exists_bool]

end LldbDebugMcp.Backend.Body
