/- module: LldbDebugMcp/Core/Types
   source: crates/debugger-core/src/{types,error,event}.rs
   digest: The neutral vocabulary of the seam: specs, outcomes, errors and events. -/

import Mathlib.Data.String.Basic

set_option autoImplicit false
set_option relaxedAutoImplicit false

namespace LldbDebugMcp.Core.Types

/-- A JSON value, as `serde_json::Value` holds it (numbers are the integers that the
requests and responses of this program carry). -/
inductive Value where
  | null
  | bool (b : Bool)
  | int (n : Int)
  | string (s : String)
  | array (items : List Value)
  | object (fields : List (String × Value))

inductive Granularity where
  | line
  | instruction
  deriving DecidableEq, Repr

inductive StepKind where
  | over
  | into
  | out
  deriving DecidableEq, Repr

/-- A stopped-event snapshot. -/
structure StopInfo where
  reason : String
  threadId : Int
  description : String
  hitBreakpointIds : List Int
  deriving DecidableEq, Repr

/-- Outcome of any operation that resumes the target. -/
inductive StopOutcome where
  | stopped (info : StopInfo)
  | exited (code : Option Int)
  | terminated
  deriving DecidableEq, Repr

structure SourceBp where
  line : Int
  condition : String
  deriving DecidableEq, Repr

structure FunctionBp where
  name : String
  condition : String
  deriving DecidableEq, Repr

structure LaunchSpec where
  program : String
  args : List String
  cwd : Option String
  env : List (String × String)
  stopOnEntry : Bool
  sourceBreakpoints : List (String × List SourceBp)
  functionBreakpoints : List FunctionBp
  deriving DecidableEq, Repr

inductive LaunchOutcome where
  | stopped (info : StopInfo)
  | running
  | exited (code : Option Int)
  deriving DecidableEq, Repr

structure AttachSpec where
  pid : Option Int
  waitFor : Option String
  deriving DecidableEq, Repr

inductive AttachOutcome where
  | stopped (info : StopInfo)
  | exited (code : Option Int)
  | terminated
  deriving DecidableEq, Repr

/-- A stack frame; the index is its position in the stack. -/
structure Frame where
  index : Int
  id : Int
  name : String
  sourcePath : Option String
  line : Int
  instructionPointer : Option String
  deriving DecidableEq, Repr

/-- A variable; a positive reference fetches its children, of which there are so many. -/
structure Variable where
  name : String
  value : String
  ty : String
  variablesReference : Int
  named : Int
  indexed : Int
  deriving DecidableEq, Repr

structure Scope where
  name : String
  variablesReference : Int
  deriving DecidableEq, Repr

structure EvalResult where
  result : String
  ty : String
  variablesReference : Int
  deriving DecidableEq, Repr

structure ThreadInfo where
  id : Int
  name : String
  deriving DecidableEq, Repr

/-- How an expression is evaluated: in a frame, or as a command of the debugger. -/
inductive EvalMode where
  | expression
  | repl
  deriving DecidableEq, Repr

/-- Raw memory, with the address as the backend gives it. -/
structure MemoryRead where
  address : String
  data : List UInt8
  deriving DecidableEq, Repr

structure Instruction where
  address : String
  instruction : String
  bytes : String
  symbol : String
  sourcePath : Option String
  line : Int
  deriving DecidableEq, Repr

/-- A backend operation failure. -/
inductive BackendError where
  | detect (message : String)
  | spawn (message : String)
  | send (message : String)
  | protocol (ty : String)
  | dap (message : String)
  | closed
  | timeout
  deriving DecidableEq, Repr

/-- The `Display` text of an error. -/
def BackendError.display : BackendError → String
  | .detect m => "failed to detect debugger: " ++ m
  | .spawn m => "failed to spawn debugger: " ++ m
  | .send m => "failed to send request: " ++ m
  | .protocol ty => "unexpected response type: " ++ ty
  | .dap m => "debugger error: " ++ m
  | .closed => "connection closed"
  | .timeout => "operation timed out"

/-- An asynchronous backend event drained by the event pump. -/
inductive BackendEvent where
  | output (category text : String)
  | terminated (code : Option Int)
  deriving DecidableEq, Repr

end LldbDebugMcp.Core.Types
