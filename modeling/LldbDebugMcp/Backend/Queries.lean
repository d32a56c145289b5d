/- module: LldbDebugMcp/Backend/Queries
   source: crates/lldb-backend/src/backend.rs
   digest: The backend's one-shot operations: one request, and its response decoded. -/

import LldbDebugMcp.Backend.Body
import LldbDebugMcp.Backend.Operations

set_option autoImplicit false
set_option relaxedAutoImplicit false

namespace LldbDebugMcp.Backend.Queries

open LldbDebugMcp.Core.Types
open LldbDebugMcp.Client.Message
open LldbDebugMcp.Library.Effect
open LldbDebugMcp.Backend
open LldbDebugMcp.Backend.Operations
open LldbDebugMcp.Server.Breakpoints (BreakpointResult)

/-- What is not of this repository: the texts of serde and the decoder of the base64 crate; and
whether the debugger is lldb-dap, which the factory has found out. -/
structure Env where
  describe : Value → String
  base64 : String → Except String (List UInt8)
  isLldbDap : Bool

section

variable (env : Env)

/-- Send a request, and decode the body of the response. -/
def query {α : Type} (op : String) (request : Request)
    (body : Option Value → Except BackendError α) : Checked α := do
  let resp ← sendChecked op request
  .mk (return body resp.body)

def setSourceBreakpoints (file : String) (bps : List SourceBp) : Checked (List BreakpointResult) :=
  query "setBreakpoints" (Requests.setBreakpoints file bps) (Body.breakpoints env.describe)

def setFunctionBreakpoints (bps : List FunctionBp) : Checked (List BreakpointResult) :=
  query "setFunctionBreakpoints" (Requests.setFunctionBreakpoints bps)
    (Body.breakpoints env.describe)

def threads : Checked (List ThreadInfo) :=
  query "threads" Requests.threads (Body.threads env.describe)

def stackTrace (threadId start levels : Int) : Checked (List Frame × Int) :=
  query "stackTrace" (Requests.stackTrace threadId start levels) (Body.stackTrace env.describe)

def scopes (frameId : Int) : Checked (List Scope) :=
  query "scopes" (Requests.scopes frameId) (Body.scopes env.describe)

def variableList (variablesReference : Int) : Checked (List Variable) :=
  query "variables" (Requests.variableList variablesReference) (Body.variableList env.describe)

/-- An expression goes with its frame. A command goes without one, and behind a backtick where the
debugger has no command mode of its own. -/
def evaluate (expr : String) (frameId : Option Int) (mode : EvalMode) : Checked EvalResult :=
  let request := match mode with
    | .expression => Requests.evaluate expr frameId "variables"
    | .repl =>
      let expr := if env.isLldbDap then expr else "`" ++ expr
      Requests.evaluate expr none "repl"
  query "evaluate" request (Body.evaluate env.describe)

def readMemory (address : String) (count : Int) : Checked MemoryRead :=
  query "readMemory" (Requests.readMemory address count) (Body.readMemory env.describe env.base64)

def disassemble (address : String) (count : Int) : Checked (List Instruction) :=
  query "disassemble" (Requests.disassemble address count) (Body.disassemble env.describe)

end

end LldbDebugMcp.Backend.Queries
