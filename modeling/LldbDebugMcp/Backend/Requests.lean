/- module: LldbDebugMcp/Backend/Requests
   source: crates/lldb-backend/src/{requests,args}.rs
   digest: The DAP requests of the backend and the shapes of their arguments. -/

import LldbDebugMcp.Client.Message

set_option autoImplicit false
set_option relaxedAutoImplicit false

namespace LldbDebugMcp.Backend.Requests

open LldbDebugMcp.Core.Types
open LldbDebugMcp.Client.Message

/-- The lldb-dap launch arguments. The command lists of the wire contract are never
populated and always omitted. -/
structure LldbLaunchArgs where
  program : String
  args : List String
  cwd : String
  env : List (String × String)
  stopOnEntry : Bool

def LldbLaunchArgs.new (program : String) (args : List String) (cwd : Option String)
    (env : List (String × String)) (stopOnEntry : Bool) : LldbLaunchArgs :=
  ⟨program, args, cwd.getD "", env, stopOnEntry⟩

/-- The lldb-dap attach arguments. -/
structure LldbAttachArgs where
  pid : Int
  program : String
  waitFor : Bool
  stopOnEntry : Bool

def LldbAttachArgs.new (pid : Option Int) (waitForName : Option String) : LldbAttachArgs :=
  match pid with
  | some pid =>
    if 0 < pid then ⟨pid, "", false, true⟩ else ⟨0, waitForName.getD "", true, true⟩
  | none => ⟨0, waitForName.getD "", true, true⟩

/-- A field that is left out when its condition fails. -/
def field (present : Bool) (key : String) (value : Value) : List (String × Value) :=
  if present then [(key, value)] else []

def launchArgsToValue (a : LldbLaunchArgs) : Value :=
  .object <|
    [("program", .string a.program)] ++
    field (!a.args.isEmpty) "args" (.array (a.args.map .string)) ++
    field (!a.cwd.isEmpty) "cwd" (.string a.cwd) ++
    field (!a.env.isEmpty) "env" (.object (a.env.map fun e => (e.1, .string e.2))) ++
    field a.stopOnEntry "stopOnEntry" (.bool true)

def attachArgsToValue (a : LldbAttachArgs) : Value :=
  .object <|
    field (a.pid != 0) "pid" (.int a.pid) ++
    field (!a.program.isEmpty) "program" (.string a.program) ++
    field a.waitFor "waitFor" (.bool true) ++
    field a.stopOnEntry "stopOnEntry" (.bool true)

/-- The `initialize` request. -/
def initializeRequest : Request :=
  Request.new "initialize" <| some <| .object
    [("clientID", .string "lldb-debug-mcp"),
      ("adapterID", .string "lldb-dap"),
      ("pathFormat", .string "path"),
      ("linesStartAt1", .bool true),
      ("columnsStartAt1", .bool true),
      ("supportsVariableType", .bool true),
      ("supportsRunInTerminalRequest", .bool false)]

def launch (args : Value) : Request := Request.new "launch" (some args)

def attach (args : Value) : Request := Request.new "attach" (some args)

/-- A breakpoint entry: its key field, and the condition unless that is empty. -/
def breakpointValue (key : String) (value : Value) (condition : String) : Value :=
  .object ([(key, value)] ++ field (!condition.isEmpty) "condition" (.string condition))

def setBreakpoints (file : String) (bps : List SourceBp) : Request :=
  Request.new "setBreakpoints" <| some <| .object
    [("source", .object [("path", .string file)]),
      ("breakpoints",
        .array (bps.map fun b => breakpointValue "line" (.int b.line) b.condition))]

def setFunctionBreakpoints (bps : List FunctionBp) : Request :=
  Request.new "setFunctionBreakpoints" <| some <| .object
    [("breakpoints",
      .array (bps.map fun b => breakpointValue "name" (.string b.name) b.condition))]

def setExceptionBreakpoints : Request :=
  Request.new "setExceptionBreakpoints" <| some <| .object [("filters", .array [])]

def configurationDone : Request := Request.new "configurationDone" none

/-- The `continue` request. -/
def cont (threadId : Int) : Request :=
  Request.new "continue" <| some <| .object [("threadId", .int threadId)]

def step (command : String) (threadId : Int) (granularity : Option String) : Request :=
  Request.new command <| some <| .object <|
    [("threadId", .int threadId)] ++
    match granularity with
    | none => []
    | some g => [("granularity", .string g)]

def pause : Request := Request.new "pause" <| some <| .object [("threadId", .int 0)]

def threads : Request := Request.new "threads" none

def stackTrace (threadId start levels : Int) : Request :=
  Request.new "stackTrace" <| some <| .object
    [("threadId", .int threadId), ("startFrame", .int start), ("levels", .int levels)]

def scopes (frameId : Int) : Request :=
  Request.new "scopes" <| some <| .object [("frameId", .int frameId)]

/-- The `variables` request. -/
def variableList (variablesReference : Int) : Request :=
  Request.new "variables" <| some <| .object [("variablesReference", .int variablesReference)]

/-- `evaluate`; the frame is named only when there is one. -/
def evaluate (expression : String) (frameId : Option Int) (context : String) : Request :=
  Request.new "evaluate" <| some <| .object <|
    [("expression", .string expression)] ++
    (match frameId with
      | none => []
      | some id => [("frameId", .int id)]) ++
    [("context", .string context)]

def readMemory (address : String) (count : Int) : Request :=
  Request.new "readMemory" <| some <| .object
    [("memoryReference", .string address), ("count", .int count)]

def disassemble (address : String) (count : Int) : Request :=
  Request.new "disassemble" <| some <| .object
    [("memoryReference", .string address), ("instructionCount", .int count)]

def disconnect (terminate : Bool) : Request :=
  Request.new "disconnect" <| some <| .object [("terminateDebuggee", .bool terminate)]

end LldbDebugMcp.Backend.Requests
