/- module: LldbDebugMcp/Server/Configured
   source: crates/mcp-tools/src/handlers/lifecycle.rs,
   crates/lldb-backend/src/{backend,requests,args}.rs
   digest: What a launch has told the adapter before the debuggee runs. -/

import LldbDebugMcp.Backend.Launch
import LldbDebugMcp.Backend.Refinement
import LldbDebugMcp.Server.Lifecycle

set_option autoImplicit false
set_option relaxedAutoImplicit false

namespace LldbDebugMcp.Server.Configured

open LldbDebugMcp.Core.Types
open LldbDebugMcp.Core.Decode
open LldbDebugMcp.Client.Message
open LldbDebugMcp.Session.Manager
open LldbDebugMcp.Backend
open LldbDebugMcp.Backend.Answers
open LldbDebugMcp.Backend.Operations
open LldbDebugMcp.Backend.Script
open LldbDebugMcp.Backend.Adapter
open LldbDebugMcp.Backend.Follow
open LldbDebugMcp.Backend.Launch
open LldbDebugMcp.Backend.Refinement
open LldbDebugMcp.Library.Transition
open LldbDebugMcp.Server.Contract
open LldbDebugMcp.Server.Handler
open LldbDebugMcp.Server.Lifecycle

/-- What an adapter has been told about a debuggee; `configured` once it may run. -/
structure Setup where
  program : Option String
  args : List String
  cwd : Option String
  env : String → Option String
  stopOnEntry : Bool
  sources : String → List SourceBp
  functions : List FunctionBp
  configured : Bool

namespace Setup

def new : Setup where
  program := none
  args := []
  cwd := none
  env := fun _ => none
  stopOnEntry := false
  sources := fun _ => []
  functions := []
  configured := false

/-- An object of strings. -/
def strings : Decoder (List (String × String))
  | .object fields => fields.mapM fun field => (text field.2).map (field.1, ·)
  | _ => none

/-- A launch: an argument that is left out is the default. -/
def launched (s : Setup) (request : Request) : Setup :=
  { s with
    program := argument request "program" text
    args := (argument request "args" (vec text)).getD []
    cwd := argument request "cwd" text
    env := fun key => ((argument request "env" strings).getD []).reverse.lookup key
    stopOnEntry := (argument request "stopOnEntry" flag).getD false }

/-- A list of breakpoints takes the place of the one before. -/
def queried (s : Setup) : Option Query → Setup
  | some (.setBreakpoints file bps) => { s with sources := Function.update s.sources file bps }
  | some (.setFunctionBreakpoints bps) => { s with functions := bps }
  | _ => s

/-- How an adapter reads a request of the handshake. -/
def told (s : Setup) (request : Request) : Setup :=
  match request.command with
  | "launch" => s.launched request
  | "configurationDone" => { s with configured := true }
  | _ => s.queried (asked request)

/-- What it has been told by a list of requests. -/
def after (requests : List Request) : Setup := requests.foldl told new

end Setup

/-- The spec of a launch, with the pending breakpoints of the session. -/
def launchSpec (args : LaunchArgs) (m : SessionManager) : LaunchSpec where
  program := args.program
  args := args.args
  cwd := if args.cwd.isEmpty then none else some args.cwd
  env := args.env
  stopOnEntry := args.stopOnEntry
  sourceBreakpoints := m.flushPendingBreakpoints.1.1
  functionBreakpoints := m.flushPendingBreakpoints.1.2

/-- What the user has asked for: the arguments of the launch and the pending breakpoints. -/
def asAsked (args : LaunchArgs) (m : SessionManager) : Setup where
  program := some args.program
  args := args.args
  cwd := if args.cwd.isEmpty then none else some args.cwd
  env := fun key => args.env.reverse.lookup key
  stopOnEntry := args.stopOnEntry
  sources := fun file => (m.pendingSourceBps.lookup file).getD []
  functions := m.pendingFunctionBps
  configured := true

section

variable {s : Setup}

theorem told_setSeq (request : Request) (seq : Int) :
    s.told (request.setSeq seq) = s.told request := rfl

theorem told_setBreakpoints (file : String) (bps : List SourceBp) :
    s.told (Requests.setBreakpoints file bps) =
      { s with sources := Function.update s.sources file bps } :=
  congrArg s.queried ((Ask.setSourceBreakpoints file bps).asked_request (reference true))

theorem told_setFunctionBreakpoints (bps : List FunctionBp) :
    s.told (Requests.setFunctionBreakpoints bps) = { s with functions := bps } :=
  congrArg s.queried ((Ask.setFunctionBreakpoints bps).asked_request (reference true))

theorem lookup_field (present : Bool) (key key' : String) (value : Value) :
    (Requests.field present key value).lookup key' =
      if key' = key ∧ present then some value else none := by
  by_cases same : key' = key
  · subst same
    cases present <;> simp [Requests.field]
  · have differs : (key' == key) = false := beq_false_of_ne same
    cases present <;> simp [Requests.field, List.lookup_cons, same, differs]

theorem strings_map (env : List (String × String)) :
    Setup.strings (.object (env.map fun e => (e.1, .string e.2))) = some env := by
  change (env.map fun e => (e.1, Value.string e.2)).mapM
    (fun field => (text field.2).map (field.1, ·)) = some env
  induction env with
  | nil => rfl
  | cons e env ih =>
    rw [List.map_cons, List.mapM_cons, ih]
    rfl

section

variable (a : Requests.LldbLaunchArgs)

/-- The argument of a launch under a name, the program apart. -/
theorem launch_argument {α : Type} (key : String) (other : key ≠ "program") (d : Decoder α) :
    argument (Requests.launch (Requests.launchArgsToValue a)) key d =
      ((((if key = "args" ∧ (!a.args.isEmpty) = true then
            some (Value.array (a.args.map .string)) else none).or
        (if key = "cwd" ∧ (!a.cwd.isEmpty) = true then some (.string a.cwd) else none)).or
        (if key = "env" ∧ (!a.env.isEmpty) = true then
          some (.object (a.env.map fun e => (e.1, .string e.2))) else none)).or
        (if key = "stopOnEntry" ∧ a.stopOnEntry = true then some (.bool true) else none)).bind
          d := by
  have program : [("program", Value.string a.program)].lookup key = none := by
    simp [List.lookup_cons, beq_false_of_ne other]
  change ((_ : List (String × Value)).lookup key).bind d = _
  simp only [List.lookup_append, lookup_field, program, Option.none_or]

theorem program_read :
    argument (Requests.launch (Requests.launchArgsToValue a)) "program" text =
      some a.program := rfl

theorem args_read :
    (argument (Requests.launch (Requests.launchArgsToValue a)) "args" (vec text)).getD [] =
      a.args := by
  have reads : vec text (.array (a.args.map .string)) = some a.args :=
    Ask.vec_map (α := String) (fun _ => rfl) a.args
  rw [launch_argument a "args" (by decide)]
  cases none_left : a.args.isEmpty
  · simpa using congrArg (Option.getD · []) reads
  · simp [List.isEmpty_iff.mp none_left]

theorem cwd_read :
    argument (Requests.launch (Requests.launchArgsToValue a)) "cwd" text =
      if a.cwd.isEmpty then none else some a.cwd := by
  rw [launch_argument a "cwd" (by decide)]
  cases a.cwd.isEmpty <;> simp [text]

theorem env_read :
    (argument (Requests.launch (Requests.launchArgsToValue a)) "env" Setup.strings).getD [] =
      a.env := by
  rw [launch_argument a "env" (by decide)]
  cases none_left : a.env.isEmpty
  · simpa using congrArg (Option.getD · []) (strings_map a.env)
  · simp [List.isEmpty_iff.mp none_left]

theorem entry_read :
    (argument (Requests.launch (Requests.launchArgsToValue a)) "stopOnEntry" flag).getD false =
      a.stopOnEntry := by
  rw [launch_argument a "stopOnEntry" (by decide)]
  cases a.stopOnEntry <;> simp [flag]

/-- An adapter reads from the launch what it is to start. -/
theorem told_launch :
    s.told (Requests.launch (Requests.launchArgsToValue a)) =
      { s with
        program := some a.program
        args := a.args
        cwd := if a.cwd.isEmpty then none else some a.cwd
        env := fun key => a.env.reverse.lookup key
        stopOnEntry := a.stopOnEntry } := by
  change s.launched _ = _
  simp only [Setup.launched, program_read, args_read, cwd_read, env_read, entry_read]

end

/-- Files that are told one by one, each once. -/
theorem told_sources (files : List (Sigma fun _ : String => List SourceBp))
    (once : files.NodupKeys) :
    (files.map fun e => Requests.setBreakpoints e.1 e.2).foldl Setup.told s =
      { s with sources := fun file => (files.dlookup file).getD (s.sources file) } := by
  induction files generalizing s with
  | nil => rfl
  | cons e rest ih =>
    obtain ⟨fresh, once⟩ := List.nodupKeys_cons.mp once
    rw [List.map_cons, List.foldl_cons, told_setBreakpoints, ih once]
    refine congrArg (fun sources => { s with sources }) (funext fun file => ?_)
    -- a file comes once, so no later list takes the place of this one
    by_cases same : file = e.1
    · subst same
      rw [List.dlookup_eq_none.mpr fresh, List.dlookup_cons_eq]
      simp
    · rw [List.dlookup_cons_ne _ _ same]
      simp [Function.update_of_ne same]

theorem told_functions (bps : List FunctionBp) (none_yet : s.functions = []) :
    (functionRequests bps).foldl Setup.told s = { s with functions := bps } := by
  cases bps with
  | nil => exact congrArg (fun functions => { s with functions }) none_yet
  | cons bp bps => exact told_setFunctionBreakpoints (bp :: bps)

theorem after_stamp (requests : List Request) :
    Setup.after (stamp requests) = Setup.after requests := by
  induction requests using List.reverseRecOn with
  | nil => rfl
  | append_singleton requests request ih =>
    rw [stamp_concat, Setup.after, Setup.after, List.foldl_concat, List.foldl_concat, told_setSeq]
    exact congrArg (Setup.told · request) ih

/-- Only `configurationDone` lets the debuggee run. -/
theorem told_configured {request : Request} (other : request.command ≠ "configurationDone") :
    (s.told request).configured = s.configured := by
  unfold Setup.told
  split
  · rfl
  · contradiction
  · unfold Setup.queried
    split <;> rfl

theorem after_configured {requests : List Request}
    (other : ∀ r ∈ requests, r.command ≠ "configurationDone") :
    (requests.foldl Setup.told s).configured = s.configured := by
  induction requests generalizing s with
  | nil => rfl
  | cons r requests ih =>
    rw [List.foldl_cons, ih fun r mem => other r (.tail _ mem), told_configured (other r (.head _))]

end

section

variable {args : LaunchArgs} {m : SessionManager}

/-- What a launch sends before it lets the debuggee run. -/
def opening (spec : LaunchSpec) : List Request :=
  [Requests.initializeRequest, Requests.launch <| Requests.launchArgsToValue <|
    Requests.LldbLaunchArgs.new spec.program spec.args spec.cwd spec.env spec.stopOnEntry] ++
  spec.sourceBreakpoints.map (fun s => Requests.setBreakpoints s.1 s.2) ++
  functionRequests spec.functionBreakpoints ++ [Requests.setExceptionBreakpoints]

theorem launchRequests_eq (spec : LaunchSpec) :
    launchRequests spec = opening spec ++ [Requests.configurationDone] := by
  simp [launchRequests, opening]

theorem opening_other {spec : LaunchSpec} {r : Request} (mem : r ∈ opening spec) :
    r.command ≠ "configurationDone" := by
  simp only [opening, functionRequests, List.mem_append, List.mem_cons, List.mem_map,
    List.not_mem_nil, or_false] at mem
  rcases mem with (((rfl | rfl) | ⟨e, -, rfl⟩) | mem) | rfl
  · decide
  · exact (by decide : "launch" ≠ "configurationDone")
  · exact (by decide : "setBreakpoints" ≠ "configurationDone")
  · split at mem
    · cases mem
    · obtain rfl := List.mem_singleton.mp mem
      exact (by decide : "setFunctionBreakpoints" ≠ "configurationDone")
  · decide

/-- A directory that is empty and one that is left out are the same to the adapter. -/
theorem launchSpec_cwd : (Requests.LldbLaunchArgs.new args.program args.args
    (launchSpec args m).cwd args.env args.stopOnEntry).cwd = args.cwd := by
  by_cases empty : args.cwd.isEmpty
  · simpa [launchSpec, Requests.LldbLaunchArgs.new, empty] using
      (String.isEmpty_iff.mp empty).symm
  · simp [launchSpec, Requests.LldbLaunchArgs.new, empty]

theorem after_launch : Setup.after (launchRequests (launchSpec args m)) = asAsked args m := by
  have sources : (launchSpec args m).sourceBreakpoints.map
      (fun s => Requests.setBreakpoints s.1 s.2) =
        m.pendingSourceBps.entries.map fun e => Requests.setBreakpoints e.1 e.2 := List.map_map
  have initialized : Setup.new.told Requests.initializeRequest = Setup.new := rfl
  have filtered (s : Setup) : s.told Requests.setExceptionBreakpoints = s := rfl
  have done (s : Setup) :
    s.told Requests.configurationDone = { s with configured := true } := rfl
  rw [launchRequests_eq, opening, sources, Setup.after]
  simp only [List.foldl_append, List.foldl_cons, List.foldl_nil, initialized, filtered, done]
  rw [told_launch, told_sources _ m.pendingSourceBps.nodupKeys, told_functions _ rfl]
  exact congrArg (fun dir : String => { asAsked args m with
    cwd := if dir.isEmpty then none else some dir }) launchSpec_cwd

theorem not_configured {requests : List Request} {spec : LaunchSpec}
    (early : requests <+: stamp (opening spec)) : (Setup.after requests).configured = false := by
  refine after_configured fun r mem => ?_
  obtain ⟨i, lt, rfl⟩ := mem_stamp (early.subset mem)
  exact opening_other (r := (opening spec)[i]) (List.getElem_mem lt)

/-- What a launch tells the adapter. -/
structure Tells (args : LaunchArgs) (m : SessionManager) (c : Connection) : Prop where
  /-- The launch of the tool has the pending breakpoints. -/
  flushed : ∀ (S : Seam) (w : World S) (t : Nat) (token : Bool), w.session = m →
    (StartPc.flushPending args).next w t token .go =
      some ⟨.at (.connecting (.launch (launchSpec args m))), none⟩
  /-- The debuggee does not run before the adapter has been told everything. -/
  before_run : (Setup.after c.link.wire).configured = true →
    Setup.after c.link.wire = asAsked args m
  returned : ∀ reply c', c.finish 0 = some (reply, c') →
    Setup.after c.link.wire = asAsked args m

/-- The debuggee runs only once the adapter has been told what the user has asked for. -/
theorem told_as_asked (args : LaunchArgs) (m : SessionManager) (pid : Option Int)
    (as : List Action) (c : Connection)
    (run : Run Connection.step Cooperative (begun pid (Call.launch (launchSpec args m)).program)
      as c) :
    Tells args m c := by
  have follows := follows (launch_wellFormed (launchSpec args m)) (launch_executes _) run
  have all : Setup.after (stamp (launchRequests (launchSpec args m))) = asAsked args m :=
    (after_stamp _).trans after_launch
  refine ⟨fun S w t token here => ?_, fun configured => ?_, fun reply c' finish => ?_⟩
  · subst here
    rfl
  · have wire := requestsOf_launch _ ▸ follows.wire
    -- all the requests are on the wire, or some without the last
    rw [launchRequests_eq, stamp_concat, List.prefix_concat_iff] at wire
    rcases wire with wire | early
    · rw [wire, ← stamp_concat, ← launchRequests_eq, all]
    · rw [not_configured early] at configured
      cases configured
  · rw [follows.written reply c' finish, requestsOf_launch, all]

end

private def verbose : LaunchArgs := ⟨"a.out", ["-v"], "", [("TERM", "dumb")], false⟩

private def planned : SessionManager :=
  (SessionManager.new.addPendingSourceBreakpoint "a.c" 3 "i > 2").addPendingFunctionBreakpoint
    "main" ""

/-- The initialized event comes before the response to `initialize`. -/
private def handshake : List Action :=
  [go, write, .act (.receive (.event .initialized)), answer 1 "initialize", go] ++
  [go, write, go] ++ exchange 3 "setBreakpoints" ++ exchange 4 "setFunctionBreakpoints" ++
  exchange 5 "setExceptionBreakpoints" ++ exchange 6 "configurationDone" ++
  [answer 2 "launch", go]

private theorem handshake_returns :
    ((exec Connection.step Cooperative
      (begun none (Call.launch (launchSpec verbose planned)).program) handshake).bind
        (·.finish 0)).isSome = true := by
  decide +kernel

theorem told_as_asked_planned :
    ∃ c, Run Connection.step Cooperative
        (begun none (Call.launch (launchSpec verbose planned)).program) handshake c ∧
      Setup.after c.link.wire = asAsked verbose planned ∧
      (Setup.after c.link.wire).sources "a.c" = [⟨3, "i > 2"⟩] := by
  obtain ⟨p, finished⟩ := Option.isSome_iff_exists.mp handshake_returns
  obtain ⟨c, executed, finish⟩ := Option.bind_eq_some_iff.mp finished
  have run := run_of_exec executed
  have told := (told_as_asked verbose planned none handshake c run).returned p.1 p.2 finish
  exact ⟨c, run, told, by rw [told]; rfl⟩

end LldbDebugMcp.Server.Configured
