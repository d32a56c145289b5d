/- module: LldbDebugMcp/Server/Dispatch
   source: crates/mcp-tools/src/{schema,server,args}.rs, handlers/{lifecycle,execution}.rs
   digest: The advertised tools, and what the dispatcher makes of a call and its arguments. -/

import LldbDebugMcp.Server.BreakpointCalls
import LldbDebugMcp.Server.Memory
import LldbDebugMcp.Server.Status
import LldbDebugMcp.Server.System

set_option autoImplicit false
set_option relaxedAutoImplicit false

namespace LldbDebugMcp.Server.Dispatch

open LldbDebugMcp.Core.Types
open LldbDebugMcp.Session.Manager
open LldbDebugMcp.Server.Arguments
open LldbDebugMcp.Server.Breakpoints
open LldbDebugMcp.Server.BreakpointCalls (BpHandler)
open LldbDebugMcp.Server.Execution
open LldbDebugMcp.Server.Inspection
open LldbDebugMcp.Server.Lifecycle
open LldbDebugMcp.Server.Memory
open LldbDebugMcp.Server.Response
open LldbDebugMcp.Server.System

/-! The tools as they are advertised. -/

inductive PropType where
  | string
  | number
  | boolean
  deriving DecidableEq, Repr

/-- One property of an input schema. -/
structure Property where
  name : String
  ty : PropType
  description : String
  enumValues : List String
  required : Bool
  deriving DecidableEq, Repr

def stringProp (name description : String) (required : Bool) : Property :=
  ⟨name, .string, description, [], required⟩

def stringEnumProp (name description : String) (enumValues : List String) (required : Bool) :
    Property := ⟨name, .string, description, enumValues, required⟩

def numberProp (name description : String) (required : Bool) : Property :=
  ⟨name, .number, description, [], required⟩

def booleanProp (name description : String) : Property :=
  ⟨name, .boolean, description, [], false⟩

structure ToolDef where
  name : String
  description : String
  props : List Property
  deriving DecidableEq, Repr

def granularityProp : Property :=
  stringEnumProp "granularity" "Step granularity" ["line", "instruction"] false

/-- The tools in their order of registration. -/
def allTools : List ToolDef :=
  [⟨"launch", "Launch a program under the debugger",
      [stringProp "program" "Path to the executable to debug" true,
        stringProp "args" "JSON array of command-line arguments" false,
        stringProp "cwd" "Working directory for the launched program" false,
        stringProp "env" "JSON object of environment variables" false,
        booleanProp "stop_on_entry" "Stop at program entry point (default true)"]⟩,
    ⟨"attach", "Attach the debugger to a running process",
      [numberProp "pid" "Process ID to attach to" false,
        stringProp "wait_for" "Process name to wait for" false]⟩,
    ⟨"disconnect", "Disconnect from the debug session",
      [booleanProp "terminate" "Terminate the debuggee (default true)"]⟩,
    ⟨"set_breakpoint", "Set a source-line breakpoint",
      [stringProp "file" "Source file path" true, numberProp "line" "Line number" true,
        stringProp "condition" "Conditional expression for the breakpoint" false]⟩,
    ⟨"set_function_breakpoint", "Set a breakpoint on a function by name",
      [stringProp "name" "Function name" true,
        stringProp "condition" "Conditional expression for the breakpoint" false]⟩,
    ⟨"remove_breakpoint", "Remove a breakpoint by ID",
      [numberProp "breakpoint_id" "Breakpoint ID to remove" true]⟩,
    ⟨"list_breakpoints", "List all current breakpoints", []⟩,
    ⟨"continue", "Continue execution of the paused program",
      [numberProp "thread_id" "Thread ID to continue (optional)" false]⟩,
    ⟨"step_over", "Step over the current line or instruction",
      [numberProp "thread_id" "Thread ID to step (optional)" false, granularityProp]⟩,
    ⟨"step_into", "Step into the current line or instruction",
      [numberProp "thread_id" "Thread ID to step (optional)" false, granularityProp]⟩,
    ⟨"step_out", "Step out of the current function",
      [numberProp "thread_id" "Thread ID to step out (optional)" false]⟩,
    ⟨"pause", "Pause all threads in the running program", []⟩,
    ⟨"status", "Get the current debug session status", []⟩,
    ⟨"backtrace", "Get the call stack for a thread",
      [numberProp "thread_id" "Thread ID (uses stopped thread if omitted)" false,
        numberProp "levels" "Maximum number of stack frames to return" false]⟩,
    ⟨"threads", "List all threads in the debugged process", []⟩,
    ⟨"variables", "List variables in the current scope",
      [numberProp "frame_index" "Stack frame index (default 0)" false,
        stringEnumProp "scope" "Variable scope" ["local", "global", "register"] false,
        numberProp "depth" "Maximum depth for nested structures" false,
        stringProp "filter" "Filter variables by name pattern" false]⟩,
    ⟨"evaluate", "Evaluate an expression in the debugger",
      [stringProp "expression" "Expression to evaluate" true,
        numberProp "frame_index" "Stack frame index for evaluation context" false]⟩,
    ⟨"read_output", "Read captured program output (stdout, stderr, console)", []⟩,
    ⟨"read_memory", "Read raw memory at a given address",
      [stringProp "address" "Memory address (hex string, e.g. 0x1000)" true,
        numberProp "count" "Number of bytes to read" true]⟩,
    ⟨"disassemble", "Disassemble instructions at an address or the current PC",
      [stringProp "address" "Start address (hex string, uses current PC if omitted)" false,
        numberProp "instruction_count" "Number of instructions to disassemble" false]⟩,
    ⟨"run_command", "Run an LLDB command directly via the debug console",
      [stringProp "command" "LLDB command string to execute" true]⟩]

/-- `get_tool`. -/
def getTool (name : String) : Option ToolDef := allTools.find? fun t => t.name = name

/-! The arguments of the lifecycle and execution tools. -/

def launchArgs (serde : Serde) (args : Args) : Except String StartArgs := do
  let program ← args.requireString "program"
  let programArgs ← args.parseJsonArray serde "args"
  let cwd := args.getString "cwd" ""
  let env ← args.parseJsonObject serde "env"
  return .launch ⟨program, programArgs, cwd, env, args.getBool "stop_on_entry" true⟩

/-- A pid goes before a name to wait for. -/
def attachArgs (args : Args) : Except String StartArgs :=
  match args.present "pid" with
  | some (.number pid) =>
    if castI64 pid ≤ 0 then .error "'pid' must be a positive integer"
    else .ok (.attach ⟨some (castI64 pid), none⟩)
  | some _ => .error "'pid' must be a number"
  | none =>
    match args.present "wait_for" with
    | some raw =>
      let name := match raw with
        | .string s => s
        | _ => ""
      if name.isEmpty then .error "'wait_for' must be a non-empty string"
      else .ok (.attach ⟨none, some name⟩)
    | none => .error "either 'pid' or 'wait_for' must be provided"

def parseGranularity (args : Args) : Option Granularity :=
  match args.getString "granularity" "" with
  | "line" => some .line
  | "instruction" => some .instruction
  | _ => none

def resumeArgs (args : Args) (resume : Resume) : ResumeArgs :=
  ⟨resume, args.explicitPositiveThreadId,
    match resume with
    | .cont => none
    | .step _ => parseGranularity args⟩

/-! The tools that show what the session holds. -/

def breakpointItem (bp : BreakpointInfo) : Value :=
  .object ([("id", .int bp.id), ("type", .string bp.ty), ("verified", .bool bp.verified)] ++
    textField "file" bp.file ++ (if bp.line > 0 then [("line", .int bp.line)] else []) ++
    textField "function" bp.function ++ textField "condition" bp.condition)

def handleListBreakpoints (m : SessionManager) : ToolOutcome :=
  .json (.object [("breakpoints", .array (m.listBreakpoints.map breakpointItem)),
    ("count", .int m.listBreakpoints.length)])

def handleReadOutput (m : SessionManager) : ToolOutcome × SessionManager :=
  match m.checkState [.configuring, .stopped, .running, .terminated] with
  | .error e => (.error e, m)
  | .ok _ => (.json (.object (formatOutputEntries m.output.drain.1)),
      { m with output := m.output.drain.2 })

/-! The dispatcher. -/

/-- The handler that a call goes to, with its arguments read. -/
inductive Called where
  | system (tool : Tool)
  | breakpoints (tool : BpTool)
  | inspection (handle : (String → String) → SessionManager → Option Inspector →
      ToolOutcome × SessionManager)
  | reading (handler : Handler Fields)
  | status
  | listBreakpoints
  | readOutput
  | unknown (name : String)

def dispatch (serde : Serde) (name : String) (args : Args) : Called :=
  match name with
  | "launch" => .system (.start (launchArgs serde args))
  | "attach" => .system (.start (attachArgs args))
  | "disconnect" => .system (.disconnect (args.getBool "terminate" true))
  | "set_breakpoint" => .breakpoints (BpHandler.setBreakpoint.tool args)
  | "set_function_breakpoint" => .breakpoints (BpHandler.setFunctionBreakpoint.tool args)
  | "remove_breakpoint" => .breakpoints (BpHandler.removeBreakpoint.tool args)
  | "list_breakpoints" => .listBreakpoints
  | "continue" => .system (.resume (resumeArgs args .cont))
  | "step_over" => .system (.resume (resumeArgs args (.step .over)))
  | "step_into" => .system (.resume (resumeArgs args (.step .into)))
  | "step_out" => .system (.resume (resumeArgs args (.step .out)))
  | "pause" => .system .pause
  | "status" => .status
  | "backtrace" => .inspection fun _ m backend => handleBacktrace m args backend
  | "threads" => .reading handleThreads
  | "variables" => .inspection fun toLowercase m backend =>
    handleVariables toLowercase m args backend
  | "evaluate" => .inspection fun _ m backend => handleEvaluate m args backend
  | "read_output" => .readOutput
  | "read_memory" => .reading (handleReadMemory args)
  | "disassemble" => .reading (handleDisassemble args)
  | "run_command" => .reading (handleRunCommand args)
  | other => .unknown other

/-! What a call depends on. -/

/-- A value of an advertised type. -/
def PropType.admits : PropType → Argument → Bool
  | .string, .string _ | .number, .number _ | .boolean, .bool _ => true
  | _, _ => false

def asStr : Argument → Option String
  | .string s => some s
  | _ => none

def asF64 : Argument → Option Rat
  | .number value => some value
  | _ => none

def asBool : Argument → Option Bool
  | .bool b => some b
  | _ => none

/-- The optional properties of which a value of another type is refused. -/
def strict : List String := ["args", "env", "pid", "wait_for"]

/-- What a tool sees of a property: a required one as it is, a strict one unless it is null, and
any other only if it is of its type. -/
def Property.seen (p : Property) (args : Args) : Option Argument :=
  if p.required then args.getRaw p.name
  else if p.name ∈ strict then args.present p.name
  else (args.getRaw p.name).filter p.ty.admits

/-- The two calls look the same to a tool. -/
def Alike (props : List Property) (args args' : Args) : Prop :=
  ∀ p ∈ props, p.seen args = p.seen args'

instance (props : List Property) (args args' : Args) : Decidable (Alike props args args') :=
  inferInstanceAs (Decidable (∀ p ∈ props, p.seen args = p.seen args'))

section

variable {args args' : Args} {key : String}

theorem getString_congr (same : (args.getRaw key).filter PropType.string.admits =
      (args'.getRaw key).filter PropType.string.admits) (default : String) :
    args.getString key default = args'.getString key default := by
  have reads (args : Args) : args.getString key default =
      (((args.getRaw key).filter PropType.string.admits).bind asStr).getD default := by
    unfold Args.getString
    cases args.getRaw key with
    | none => rfl
    | some v => cases v <;> rfl
  rw [reads, reads, same]

theorem getF64_congr (same : (args.getRaw key).filter PropType.number.admits =
      (args'.getRaw key).filter PropType.number.admits) : args.getF64 key = args'.getF64 key := by
  have reads (args : Args) : args.getF64 key =
      ((args.getRaw key).filter PropType.number.admits).bind asF64 := by
    unfold Args.getF64
    cases args.getRaw key with
    | none => rfl
    | some v => cases v <;> rfl
  rw [reads, reads, same]

theorem getBool_congr (same : (args.getRaw key).filter PropType.boolean.admits =
      (args'.getRaw key).filter PropType.boolean.admits) (default : Bool) :
    args.getBool key default = args'.getBool key default := by
  have reads (args : Args) : args.getBool key default =
      (((args.getRaw key).filter PropType.boolean.admits).bind asBool).getD default := by
    unfold Args.getBool
    cases args.getRaw key with
    | none => rfl
    | some v => cases v <;> rfl
  rw [reads, reads, same]

theorem requireString_congr (same : args.getRaw key = args'.getRaw key) :
    args.requireString key = args'.requireString key := by
  rw [Args.requireString, Args.requireString, same]

theorem requireInt_congr (same : args.getRaw key = args'.getRaw key) :
    args.requireInt key = args'.requireInt key := by
  rw [Args.requireInt, Args.requireInt, same]

theorem requirePositiveInt_congr (same : args.getRaw key = args'.getRaw key) :
    args.requirePositiveInt key = args'.requirePositiveInt key := by
  rw [Args.requirePositiveInt, Args.requirePositiveInt, requireInt_congr same]

variable {serde : Serde} {props : List Property}

/-- Equal up to a null. -/
theorem parseJsonArray_congr (same : args.present key = args'.present key) :
    args.parseJsonArray serde key = args'.parseJsonArray serde key := by
  rw [Args.parseJsonArray, Args.parseJsonArray, same]

theorem parseJsonObject_congr (same : args.present key = args'.present key) :
    args.parseJsonObject serde key = args'.parseJsonObject serde key := by
  rw [Args.parseJsonObject, Args.parseJsonObject, same]

/-- What is advertised of a property of a tool: whether it is required, and its type. -/
def advertised (name key : String) : Option (Bool × PropType) :=
  (getTool name).bind fun tool =>
    (tool.props.find? fun p => p.name = key).map fun p => (p.required, p.ty)

/-- The calls look the same to a tool that is advertised under the name. -/
def AlikeTo (name : String) (args args' : Args) : Prop :=
  ∀ tool, getTool name = some tool → Alike tool.props args args'

variable {name : String} {ty : PropType} (alike : AlikeTo name args args')

include alike

theorem AlikeTo.seen {required : Bool} (known : advertised name key = some (required, ty)) :
    ∃ p : Property, p.name = key ∧ p.required = required ∧ p.ty = ty ∧
      p.seen args = p.seen args' := by
  obtain ⟨tool, here, rest⟩ := Option.bind_eq_some_iff.mp known
  obtain ⟨p, found, shown⟩ := Option.map_eq_some_iff.mp rest
  obtain ⟨rfl, rfl⟩ := Prod.mk.inj shown
  have named : p.name = key := by simpa only [decide_eq_true_eq] using List.find?_some found
  exact ⟨p, named, rfl, rfl, alike tool here p (List.mem_of_find?_eq_some found)⟩

theorem AlikeTo.required (known : advertised name key = some (true, ty)) :
    args.getRaw key = args'.getRaw key := by
  obtain ⟨p, rfl, required, -, same⟩ := alike.seen known
  simpa only [Property.seen, required, if_true] using same

theorem AlikeTo.strict (known : advertised name key = some (false, ty))
    (strict : key ∈ Dispatch.strict) : args.present key = args'.present key := by
  obtain ⟨p, rfl, optional, -, same⟩ := alike.seen known
  simpa only [Property.seen, optional, strict, Bool.false_eq_true, if_false, if_true] using same

theorem AlikeTo.typed (known : advertised name key = some (false, ty))
    (lenient : key ∉ Dispatch.strict) :
    (args.getRaw key).filter ty.admits = (args'.getRaw key).filter ty.admits := by
  obtain ⟨p, rfl, optional, rfl, same⟩ := alike.seen known
  simpa only [Property.seen, optional, lenient, Bool.false_eq_true, if_false] using same

end

section

variable {args args' : Args} {serde : Serde}

theorem launchArgs_congr (alike : AlikeTo "launch" args args') :
    launchArgs serde args = launchArgs serde args' := by
  unfold launchArgs
  rw [requireString_congr (alike.required rfl), parseJsonArray_congr (alike.strict rfl (by decide)),
    getString_congr (alike.typed rfl (by decide)),
    parseJsonObject_congr (alike.strict rfl (by decide)),
    getBool_congr (alike.typed rfl (by decide))]

theorem attachArgs_congr (alike : AlikeTo "attach" args args') :
    attachArgs args = attachArgs args' := by
  have pid : args.present "pid" = args'.present "pid" := alike.strict rfl (by decide)
  have waitFor : args.present "wait_for" = args'.present "wait_for" :=
    alike.strict rfl (by decide)
  unfold attachArgs
  rw [pid, waitFor]

theorem setBreakpoint_congr (alike : AlikeTo "set_breakpoint" args args') :
    BpHandler.setBreakpoint.tool args = BpHandler.setBreakpoint.tool args' := by
  simp only [BpHandler.tool]
  rw [requireString_congr (alike.required rfl), requirePositiveInt_congr (alike.required rfl),
    getString_congr (alike.typed rfl (by decide))]

theorem setFunctionBreakpoint_congr (alike : AlikeTo "set_function_breakpoint" args args') :
    BpHandler.setFunctionBreakpoint.tool args = BpHandler.setFunctionBreakpoint.tool args' := by
  simp only [BpHandler.tool]
  rw [requireString_congr (alike.required rfl), getString_congr (alike.typed rfl (by decide))]

theorem removeBreakpoint_congr (alike : AlikeTo "remove_breakpoint" args args') :
    BpHandler.removeBreakpoint.tool args = BpHandler.removeBreakpoint.tool args' := by
  simp only [BpHandler.tool]
  rw [requireInt_congr (alike.required rfl)]

theorem threadId_congr {name : String} (alike : AlikeTo name args args')
    (known : advertised name "thread_id" = some (false, .number)) :
    args.explicitPositiveThreadId = args'.explicitPositiveThreadId := by
  unfold Args.explicitPositiveThreadId
  rw [getF64_congr (alike.typed known (by decide))]

theorem granularity_congr {name : String} (alike : AlikeTo name args args')
    (known : advertised name "granularity" = some (false, .string)) :
    parseGranularity args = parseGranularity args' := by
  unfold parseGranularity
  rw [getString_congr (alike.typed known (by decide))]

theorem stepArgs_congr {name : String} (kind : StepKind) (alike : AlikeTo name args args')
    (threaded : advertised name "thread_id" = some (false, .number))
    (grained : advertised name "granularity" = some (false, .string)) :
    resumeArgs args (.step kind) = resumeArgs args' (.step kind) := by
  unfold resumeArgs
  rw [threadId_congr alike threaded, granularity_congr alike grained]

theorem handleBacktrace_congr (alike : AlikeTo "backtrace" args args') (m : SessionManager)
    (backend : Option Inspector) :
    handleBacktrace m args backend = handleBacktrace m args' backend := by
  have threads : resolveBacktraceThreadId m args = resolveBacktraceThreadId m args' := by
    unfold resolveBacktraceThreadId
    rw [threadId_congr alike rfl]
  have levels : backtraceLevels args = backtraceLevels args' := by
    unfold backtraceLevels
    rw [getF64_congr (alike.typed rfl (by decide))]
  unfold handleBacktrace
  rw [threads, levels]

theorem frameIndex_congr {name : String} (alike : AlikeTo name args args')
    (known : advertised name "frame_index" = some (false, .number)) :
    frameIndex args = frameIndex args' := by
  unfold frameIndex
  rw [getF64_congr (alike.typed known (by decide))]

theorem readVariables_congr (alike : AlikeTo "variables" args args')
    (toLowercase : String → String) (backend : Inspector) (frameId : Int) :
    readVariables toLowercase args backend frameId =
      readVariables toLowercase args' backend frameId := by
  have scope : requestedScope args = requestedScope args' := by
    unfold requestedScope
    rw [getString_congr (alike.typed rfl (by decide))]
  have depth : requestedDepth args = requestedDepth args' := by
    unfold requestedDepth requestedDepth.defaultDepth
    rw [scope, getF64_congr (alike.typed rfl (by decide))]
  have filter : args.getString "filter" "" = args'.getString "filter" "" :=
    getString_congr (alike.typed rfl (by decide)) ""
  unfold readVariables
  rw [scope, depth, filter, frameIndex_congr alike rfl]

theorem handleReadMemory_congr (alike : AlikeTo "read_memory" args args') :
    handleReadMemory args = handleReadMemory args' := by
  unfold handleReadMemory
  rw [requireString_congr (alike.required rfl), requirePositiveInt_congr (alike.required rfl)]

theorem handleDisassemble_congr (alike : AlikeTo "disassemble" args args') :
    handleDisassemble args = handleDisassemble args' := by
  have count : instructionCount args = instructionCount args' := by
    unfold instructionCount
    rw [getF64_congr (alike.typed rfl (by decide))]
  unfold handleDisassemble
  rw [count, getString_congr (alike.typed rfl (by decide))]

theorem handleRunCommand_congr (alike : AlikeTo "run_command" args args') :
    handleRunCommand args = handleRunCommand args' := by
  unfold handleRunCommand
  rw [requireString_congr (alike.required rfl)]

/-- The two calls come to the same: they go to one handler with the same arguments, or they are
resumes that run the same program on the backend. -/
inductive Same : Called → Called → Prop where
  | refl (called : Called) : Same called called
  | resume {a a' : ResumeArgs} (kind : a.resume = a'.resume) (thread : a.threadId = a'.threadId)
      (program : ∀ threadId, (a.resume.call threadId a.granularity).program =
        (a'.resume.call threadId a'.granularity).program) :
      Same (.system (.resume a)) (.system (.resume a'))

theorem Same.of_eq {called called' : Called} (eq : called = called') : Same called called' :=
  eq ▸ .refl called

theorem inspection_congr {handle handle' : (String → String) → SessionManager → Option Inspector →
      ToolOutcome × SessionManager}
    (same : ∀ toLowercase m backend, handle toLowercase m backend = handle' toLowercase m backend) :
    Same (.inspection handle) (.inspection handle') :=
  .of_eq (congrArg Called.inspection (funext fun toLowercase => funext fun m =>
    funext fun backend => same toLowercase m backend))

/-- What a call comes to depends on what its tool sees of the advertised properties. A `step_out`
reads a granularity, which is not advertised, and its backend drops it. -/
theorem dispatch_same {name : String} (alike : AlikeTo name args args') :
    Same (dispatch serde name args) (dispatch serde name args') := by
  unfold dispatch
  -- the tools in the order of the dispatcher; those left over read no argument
  split
  case h_1 => exact .of_eq (congrArg (fun r => Called.system (.start r)) (launchArgs_congr alike))
  case h_2 => exact .of_eq (congrArg (fun r => Called.system (.start r)) (attachArgs_congr alike))
  case h_3 =>
    exact .of_eq (congrArg (fun b => Called.system (.disconnect b))
      (getBool_congr (alike.typed rfl (by decide)) true))
  case h_4 => exact .of_eq (congrArg Called.breakpoints (setBreakpoint_congr alike))
  case h_5 => exact .of_eq (congrArg Called.breakpoints (setFunctionBreakpoint_congr alike))
  case h_6 => exact .of_eq (congrArg Called.breakpoints (removeBreakpoint_congr alike))
  case h_8 =>
    exact .of_eq (congrArg (fun r => Called.system (.resume ⟨.cont, r, none⟩))
      (threadId_congr alike rfl))
  case h_9 =>
    exact .of_eq
      (congrArg (fun r => Called.system (.resume r)) (stepArgs_congr .over alike rfl rfl))
  case h_10 =>
    exact .of_eq
      (congrArg (fun r => Called.system (.resume r)) (stepArgs_congr .into alike rfl rfl))
  case h_11 => exact .resume rfl (threadId_congr alike rfl) fun threadId => rfl
  case h_14 => exact inspection_congr fun _ m backend => handleBacktrace_congr alike m backend
  case h_16 =>
    have read := readVariables_congr alike
    have index := frameIndex_congr alike rfl
    exact inspection_congr fun toLowercase m backend => by
      simp only [handleVariables, withFrame, read, index]
  case h_17 =>
    have expression : args.requireString "expression" = args'.requireString "expression" :=
      requireString_congr (alike.required rfl)
    have index := frameIndex_congr alike rfl
    exact inspection_congr fun _ m backend => by
      simp only [handleEvaluate, withFrame, expression, index]
  case h_19 => exact .of_eq (congrArg Called.reading (handleReadMemory_congr alike))
  case h_20 => exact .of_eq (congrArg Called.reading (handleDisassemble_congr alike))
  case h_21 => exact .of_eq (congrArg Called.reading (handleRunCommand_congr alike))
  all_goals exact .refl _

end

/-- The names under which a tool is advertised. -/
theorem mem_of_getTool {name : String} {tool : ToolDef} (known : getTool name = some tool) :
    name ∈ ["launch", "attach", "disconnect", "set_breakpoint", "set_function_breakpoint",
      "remove_breakpoint", "list_breakpoints", "continue", "step_over", "step_into", "step_out",
      "pause", "status", "backtrace", "threads", "variables", "evaluate", "read_output",
      "read_memory", "disassemble", "run_command"] :=
  List.mem_map.mpr ⟨tool, List.mem_of_find?_eq_some known,
    by simpa only [decide_eq_true_eq] using List.find?_some known⟩

/-- A call goes to a handler exactly if a tool is advertised under its name, and what it comes to
depends on what that tool sees of its advertised properties: nothing else is read, and an optional
value of another type counts as absent. -/
theorem dispatch_advertised (serde : Serde) (name : String) (args : Args) :
    (getTool name = none → dispatch serde name args = .unknown name) ∧
    ∀ tool, getTool name = some tool → (∀ other, dispatch serde name args ≠ .unknown other) ∧
      ∀ args', Alike tool.props args args' →
        Same (dispatch serde name args) (dispatch serde name args') := by
  refine ⟨fun none => ?_, fun tool known => ⟨fun other => ?_, fun args' alike => ?_⟩⟩
  · unfold dispatch
    split
    all_goals first
      | rfl
      | exact absurd none (by decide)
  · unfold dispatch
    split
    case h_22 =>
      have named := mem_of_getTool known
      simp only [List.mem_cons, List.not_mem_nil, or_false] at named
      grind
    all_goals exact fun same => by cases same
  · exact dispatch_same fun tool' known' => by
      obtain rfl := Option.some.inj (known.symm.trans known')
      exact alike

/-- An evaluation with a frame index that is no number, and with a field that no tool reads. -/
def evaluateArgs : Args :=
  ⟨((AList.singleton "expression" (.string "x")).insert "frame_index" (.string "2")).insert
    "depth" (.number 3)⟩

/-- What serde_json makes of a text that is no JSON. -/
def unreadable : Serde where
  array _ := .error "expected value at line 1 column 1"
  object _ := .error "expected value at line 1 column 1"

theorem dispatch_advertised_evaluate :
    Same (dispatch unreadable "evaluate" evaluateArgs)
      (dispatch unreadable "evaluate" ⟨AList.singleton "expression" (.string "x")⟩) :=
  ((dispatch_advertised unreadable "evaluate" evaluateArgs).2 _ rfl).2 _ (by decide)

end LldbDebugMcp.Server.Dispatch
