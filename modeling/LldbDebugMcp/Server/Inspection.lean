/- module: LldbDebugMcp/Server/Inspection
   source: crates/mcp-tools/src/{frame,errors}.rs, crates/mcp-tools/src/handlers/inspection.rs
   digest: The inspection handlers that go through the frame map, and what each does to it. -/

import LldbDebugMcp.Server.Arguments
import LldbDebugMcp.Server.Flatten
import LldbDebugMcp.Server.Response
import LldbDebugMcp.Session.Manager

set_option autoImplicit false
set_option relaxedAutoImplicit false

namespace LldbDebugMcp.Server.Inspection

open LldbDebugMcp.Core.Types
open LldbDebugMcp.Session.Manager
open LldbDebugMcp.Server.Arguments
open LldbDebugMcp.Server.Flatten
open LldbDebugMcp.Server.Response

def OpError.stackTrace : OpError := .ofVerb "stackTrace"

def OpError.scopes : OpError := .ofVerb "scopes"

def OpError.evaluate : OpError := .ofVerb "evaluate"

def OpError.variables : OpError :=
  { OpError.ofVerb "variables" with failed := "variables request failed: " }

/-- The requests of these handlers, each with what it comes to. -/
structure Inspector where
  stackTrace : (threadId start levels : Int) → Except BackendError (List Frame × Int)
  scopes : (frameId : Int) → Except BackendError (List Scope)
  fetch : Fetcher
  evaluate : (expression : String) → (frameId : Int) → Except BackendError EvalResult

abbrev FrameMap := AList (fun _ : Int => Int)

/-- The map from the index of each frame to its id. -/
def frameMap (frames : List Frame) : FrameMap :=
  frames.foldl (fun map frame => map.insert frame.index frame.id) ∅

/-- The thread that was stopped last, else the first. -/
def stoppedThread (m : SessionManager) : Int := (m.lastStopped.map StopInfo.threadId).getD 1

def outOfRange (index : Int) (count : Nat) : String :=
  "frame index " ++ toString index ++ " out of range (stack has " ++ toString count ++ " frames)"

/-- The texts of the implicit `stackTrace` request. -/
def mapImplicitError : BackendError → String
  | .send inner => "implicit stackTrace request failed: " ++ inner
  | .closed => "implicit stackTrace request failed: connection closed"
  | .timeout => "implicit stackTrace request failed: operation timed out"
  | .detect m | .spawn m => "implicit stackTrace request failed: " ++ m
  | .protocol ty =>
    match splitOnce ty ':' with
    | some (_, label) => "unexpected stackTrace response type: " ++ label
    | none => "unexpected stackTrace response type: " ++ ty
  | .dap message =>
    match stripAfter message " request failed: " with
    | some inner => "implicit stackTrace request failed: " ++ inner
    | none =>
      match stripAfter message " failed: " with
      | some inner => "implicit stackTrace failed: " ++ inner
      | none => message

/-- The frame id of an index: the one of the map, else of a map made of the first 20 frames. -/
def resolveFrameId (backend : Inspector) (m : SessionManager) (frameIndex : Int) :
    Except String Int × SessionManager :=
  match m.frameMapping.lookup frameIndex with
  | some frameId => (.ok frameId, m)
  | none =>
    match backend.stackTrace (stoppedThread m) 0 20 with
    | .error e => (.error (mapImplicitError e), m)
    | .ok (frames, _) =>
      let m' := m.setFrameMapping (frameMap frames)
      match (frameMap frames).lookup frameIndex with
      | some frameId => (.ok frameId, m')
      | none => (.error (outOfRange frameIndex frames.length), m')

/-- A text field that is there and not empty. -/
def nonempty : Option String → Option String
  | some text => if text.isEmpty then none else some text
  | none => none

def frameItem (frame : Frame) : Value :=
  .object
    ([("index", .int frame.index), ("name", .string frame.name), ("id", .int frame.id)] ++
      (match nonempty frame.sourcePath with
        | some path => [("file", .string path), ("line", .int frame.line)]
        | none => []) ++
      match nonempty frame.instructionPointer with
      | some ip => [("address", .string ip)]
      | none => [])

def resolveBacktraceThreadId (m : SessionManager) (args : Args) : Except String Int :=
  match args.explicitPositiveThreadId with
  | .error e => .error e
  | .ok (some tid) => .ok tid
  | .ok none => .ok (stoppedThread m)

def backtraceLevels (args : Args) : Int :=
  match args.getF64 "levels" with
  | some levels => if levels > 0 then castI64 levels else 20
  | none => 20

def handleBacktrace (m : SessionManager) (args : Args) (backend : Option Inspector) :
    ToolOutcome × SessionManager :=
  match m.checkState [.stopped] with
  | .error e => (.error e, m)
  | .ok _ =>
    match resolveBacktraceThreadId m args with
    | .error e => (.error e, m)
    | .ok threadId =>
      match backend with
      | none => (.error OpError.stackTrace.requestFailed, m)
      | some backend =>
        match backend.stackTrace threadId 0 (backtraceLevels args) with
        | .error e => (.error (OpError.stackTrace.render e), m)
        | .ok (frames, totalFrames) =>
          (.json (.object [("frames", .array (frames.map frameItem)),
            ("total_frames", .int totalFrames), ("thread_id", .int threadId)]),
            m.setFrameMapping (frameMap frames))

def frameIndex (args : Args) : Int := ((args.getF64 "frame_index").map castI64).getD 0

/-- Whether a scope of the adapter is the one that is asked for. -/
def scopeMatches (toLowercase : String → String) (requested name : String) : Bool :=
  let lower := toLowercase name
  match requested with
  | "local" => lower = "locals" || lower = "local"
  | "global" => lower = "globals" || lower = "global"
  | "register" => lower = "registers" || lower = "register"
  | _ => false

def requestedScope (args : Args) : String :=
  let scope := args.getString "scope" ""
  if scope.isEmpty then "local" else scope

def requestedDepth (args : Args) : Int :=
  match args.getF64 "depth" with
  | some depth => if depth ≥ 0 then castI64 depth else defaultDepth
  | none => defaultDepth
where
  defaultDepth : Int := if requestedScope args = "global" then 1 else 2

def variableItem (v : FlatVariable) : Value :=
  .object
    ([("name", .string v.name), ("value", .string v.value)] ++
      (if v.ty.isEmpty then [] else [("type", .string v.ty)]) ++
      (if v.hasChildren then [("has_children", .bool true)] else []) ++
      if v.childrenCount = 0 then [] else [("children_count", .int v.childrenCount)])

/-- The most variables that a call returns. -/
def variableCap : Nat := 100

/-- What a call comes to once its frame is resolved: `variables` of a scope. -/
def readVariables (toLowercase : String → String) (args : Args) (backend : Inspector)
    (frameId : Int) : ToolOutcome :=
  let scope := requestedScope args
  match backend.scopes frameId with
  | .error e => .error (OpError.scopes.render e)
  | .ok scopes =>
    match scopes.find? fun s => scopeMatches toLowercase scope s.name with
    | none =>
      .error ("scope '" ++ scope ++ "' not found in frame " ++ toString (frameIndex args))
    | some target =>
      match (flattenVariables toLowercase backend.fetch target.variablesReference
        (requestedDepth args) variableCap (args.getString "filter" "")).outcome with
      | .error e => .error ("failed to fetch variables: " ++ OpError.variables.render e)
      | .ok (vars, truncated) =>
        .json (.object [("variables", .array (vars.map variableItem)),
          ("count", .int vars.length), ("scope", .string scope), ("truncated", .bool truncated)])

/-- What a call comes to once its frame is resolved: `evaluate` of an expression. -/
def readExpression (backend : Inspector) (expression : String) (frameId : Int) : ToolOutcome :=
  match backend.evaluate expression frameId with
  | .error e => .error (OpError.evaluate.render e)
  | .ok result =>
    .json (.object ([("result", .string result.result), ("type", .string result.ty)] ++
      if result.variablesReference > 0 then
        [("has_children", .bool true), ("variables_reference", .int result.variablesReference)]
      else []))

/-- Resolve the frame of a call and go on with it. -/
def withFrame (m : SessionManager) (args : Args) (backend : Option Inspector)
    (read : Inspector → Int → ToolOutcome) : ToolOutcome × SessionManager :=
  match backend with
  | none => (.error "failed to resolve frame: connection closed", m)
  | some backend =>
    match resolveFrameId backend m (frameIndex args) with
    | (.error e, m') => (.error ("failed to resolve frame: " ++ e), m')
    | (.ok frameId, m') => (read backend frameId, m')

def handleVariables (toLowercase : String → String) (m : SessionManager) (args : Args)
    (backend : Option Inspector) : ToolOutcome × SessionManager :=
  match m.checkState [.stopped] with
  | .error e => (.error e, m)
  | .ok _ => withFrame m args backend fun backend frameId =>
    readVariables toLowercase args backend frameId

def handleEvaluate (m : SessionManager) (args : Args) (backend : Option Inspector) :
    ToolOutcome × SessionManager :=
  match m.checkState [.stopped] with
  | .error e => (.error e, m)
  | .ok _ =>
    match args.requireString "expression" with
    | .error e => (.error e, m)
    | .ok expression => withFrame m args backend fun backend frameId =>
      readExpression backend expression frameId

end LldbDebugMcp.Server.Inspection
