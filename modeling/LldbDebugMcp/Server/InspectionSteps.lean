/- module: LldbDebugMcp/Server/InspectionSteps
   source: crates/mcp-tools/src/frame.rs, crates/mcp-tools/src/handlers/inspection.rs
   digest: The calls that go through the frame map, one await or lock acquisition a step. -/

import LldbDebugMcp.Server.Frames
import LldbDebugMcp.Session.Operation

set_option autoImplicit false
set_option relaxedAutoImplicit false

namespace LldbDebugMcp.Server.InspectionSteps

open LldbDebugMcp.Core.Types
open LldbDebugMcp.Session.Manager
open LldbDebugMcp.Session.Operation
open LldbDebugMcp.Server.Arguments
open LldbDebugMcp.Server.Response
open LldbDebugMcp.Server.Inspection
open LldbDebugMcp.Server.Frames (FrameTool)

/-- The calls with their arguments: a backtrace, or one that resolves a frame. -/
inductive InspectTool where
  | backtrace (args : Args)
  | ofFrame (tool : FrameTool) (args : Args)

/-- What is checked of the arguments before the backend is looked up. -/
def checkArgs (args : Args) : FrameTool → Except String Unit
  | .readVariables => .ok ()
  | .evaluate => (args.requireString "expression").map fun _ => ()

/-- What a call comes to once its frame is resolved. -/
def readFrame (toLowercase : String → String) (args : Args) (backend : Inspector)
    (frameId : Int) : FrameTool → ToolOutcome
  | .readVariables => readVariables toLowercase args backend frameId
  | .evaluate =>
    match args.requireString "expression" with
    | .error e => .error e
    | .ok expression => readExpression backend expression frameId

def backtraceResponse (threadId : Int) (frames : List Frame) (total : Int) : ToolOutcome :=
  .json (.object [("frames", .array (frames.map frameItem)), ("total_frames", .int total),
    ("thread_id", .int threadId)])

inductive InspectPc where
  | checkState (tool : InspectTool)
  | resolveThread (args : Args)
  | backtraceBackend (args : Args) (threadId : Int)
  | backtracing (args : Args) (threadId : Int)
  | storeFrames (threadId : Int) (frames : List Frame) (total : Int)
  | frameBackend (tool : FrameTool) (args : Args)
  /-- `resolve_frame_id`: look the index up in the map. -/
  | frameMapping (tool : FrameTool) (args : Args)
  | lastStopped (tool : FrameTool) (args : Args)
  | resolving (tool : FrameTool) (args : Args) (threadId : Int)
  | storeResolved (tool : FrameTool) (args : Args) (frames : List Frame)
  /-- The requests about the frame; the session is left alone from here on. -/
  | reading (tool : FrameTool) (args : Args) (frameId : Int)
  | done (outcome : ToolOutcome)

namespace InspectPc

/-- The session write of a point. -/
def operation : InspectPc → Option Bookkeeping
  | .storeFrames _ frames _ | .storeResolved _ _ frames =>
    some (.setFrameMapping (frameMap frames))
  | _ => none

/-- The session after a step. -/
def write (m : SessionManager) (pc : InspectPc) : SessionManager :=
  applyOption m (pc.operation.map .bookkeeping)

/-- The next point, given what the session and the backend slot are at this one, and what the
adapter answers to the request; `none` while it has not answered. -/
def next (toLowercase : String → String) (m : SessionManager) (connected : Bool)
    (reply : Option Inspector) : InspectPc → Option InspectPc
  | .checkState tool =>
    match m.checkState [.stopped] with
    | .error e => some (.done (.error e))
    | .ok _ =>
      match tool with
      | .backtrace args => some (.resolveThread args)
      | .ofFrame tool args =>
        match checkArgs args tool with
        | .error e => some (.done (.error e))
        | .ok _ => some (.frameBackend tool args)
  | .resolveThread args =>
    match resolveBacktraceThreadId m args with
    | .error e => some (.done (.error e))
    | .ok threadId => some (.backtraceBackend args threadId)
  | .backtraceBackend args threadId =>
    some (if connected then .backtracing args threadId
      else .done (.error OpError.stackTrace.requestFailed))
  | .backtracing args threadId =>
    reply.map fun backend =>
      match backend.stackTrace threadId 0 (backtraceLevels args) with
      | .error e => .done (.error (OpError.stackTrace.render e))
      | .ok (frames, total) => .storeFrames threadId frames total
  | .storeFrames threadId frames total => some (.done (backtraceResponse threadId frames total))
  | .frameBackend tool args =>
    some (if connected then .frameMapping tool args
      else .done (.error "failed to resolve frame: connection closed"))
  | .frameMapping tool args =>
    match m.frameMapping.lookup (frameIndex args) with
    | some frameId => some (.reading tool args frameId)
    | none => some (.lastStopped tool args)
  | .lastStopped tool args => some (.resolving tool args (stoppedThread m))
  | .resolving tool args threadId =>
    reply.map fun backend =>
      match backend.stackTrace threadId 0 20 with
      | .error e => .done (.error ("failed to resolve frame: " ++ mapImplicitError e))
      | .ok (frames, _) => .storeResolved tool args frames
  | .storeResolved tool args frames =>
    match (frameMap frames).lookup (frameIndex args) with
    | some frameId => some (.reading tool args frameId)
    | none =>
      some (.done (.error
        ("failed to resolve frame: " ++ outOfRange (frameIndex args) frames.length)))
  | .reading tool args frameId =>
    reply.map fun backend => .done (readFrame toLowercase args backend frameId tool)
  | .done _ => none

end InspectPc

section

variable (toLowercase : String → String)

def InspectTool.handle (m : SessionManager) (backend : Option Inspector) :
    InspectTool → ToolOutcome × SessionManager
  | .backtrace args => handleBacktrace m args backend
  | .ofFrame tool args => tool.handle toLowercase m args backend

/-- From a point on, a call that is alone on the session comes to an outcome, and leaves the
session so. -/
inductive Comes (backend : Option Inspector) :
    SessionManager → InspectPc → ToolOutcome → SessionManager → Prop where
  | done {m : SessionManager} {outcome : ToolOutcome} : Comes backend m (.done outcome) outcome m
  | step {m m' : SessionManager} {pc : InspectPc} {outcome : ToolOutcome} (pc' : InspectPc)
      (moved : pc.next toLowercase m backend.isSome backend = some pc')
      (rest : Comes backend (pc.write m) pc' outcome m') : Comes backend m pc outcome m'

variable {toLowercase}
variable {m : SessionManager} {backend : Option Inspector}

private theorem comes_backtrace (args : Args) :
    Comes toLowercase backend m (.checkState (.backtrace args)) (handleBacktrace m args backend).1
      (handleBacktrace m args backend).2 := by
  unfold handleBacktrace
  cases guard : m.checkState [.stopped] with
  | error e => exact .step _ (by simp only [InspectPc.next, guard]) .done
  | ok _ =>
    refine .step (.resolveThread args) (by simp only [InspectPc.next, guard]) ?_
    change Comes toLowercase backend m _ _ _
    cases thread : resolveBacktraceThreadId m args with
    | error e => exact .step _ (by simp only [InspectPc.next, thread]) .done
    | ok threadId =>
      refine .step (.backtraceBackend args threadId)
        (by simp only [InspectPc.next, thread]) ?_
      change Comes toLowercase backend m _ _ _
      cases backend with
      | none => exact .step _ rfl .done
      | some backend =>
        refine .step (.backtracing args threadId) rfl ?_
        change Comes toLowercase (some backend) m _ _ _
        cases stack : backend.stackTrace threadId 0 (backtraceLevels args) with
        | error e =>
          simp only [stack]
          exact .step _ (by simp only [InspectPc.next, Option.map_some, stack]) .done
        | ok answer =>
          simp only [stack]
          exact .step (.storeFrames threadId answer.1 answer.2)
            (by simp only [InspectPc.next, Option.map_some, stack]) (.step _ rfl .done)

/-- The frame resolution, and what follows it. -/
private theorem comes_frame {backend : Inspector} (tool : FrameTool) (args : Args) :
    let resolved := resolveFrameId backend m (frameIndex args)
    Comes toLowercase (some backend) m (.frameMapping tool args)
      (match resolved.1 with
        | .error e => .error ("failed to resolve frame: " ++ e)
        | .ok frameId => readFrame toLowercase args backend frameId tool)
      resolved.2 := by
  intro resolved
  cases hit : m.frameMapping.lookup (frameIndex args) with
  | some frameId =>
    have eq : resolved = (.ok frameId, m) := by simp only [resolved, resolveFrameId, hit]
    rw [eq]
    exact .step (.reading tool args frameId) (by simp only [InspectPc.next, hit])
      (.step _ rfl .done)
  | none =>
    refine .step (.lastStopped tool args) (by simp only [InspectPc.next, hit])
      (.step (.resolving tool args (stoppedThread m)) rfl ?_)
    change Comes toLowercase (some backend) m _ _ _
    cases stack : backend.stackTrace (stoppedThread m) 0 20 with
    | error e =>
      have eq : resolved = (.error (mapImplicitError e), m) := by
        simp only [resolved, resolveFrameId, hit, stack]
      rw [eq]
      exact .step _ (by simp only [InspectPc.next, Option.map_some, stack]) .done
    | ok answer =>
      obtain ⟨frames, total⟩ := answer
      refine .step (.storeResolved tool args frames)
        (by simp only [InspectPc.next, Option.map_some, stack]) ?_
      cases there : (frameMap frames).lookup (frameIndex args) with
      | some frameId =>
        have eq : resolved = (.ok frameId, m.setFrameMapping (frameMap frames)) := by
          simp only [resolved, resolveFrameId, hit, stack, there]
        rw [eq]
        exact .step (.reading tool args frameId) (by simp only [InspectPc.next, there])
          (.step _ rfl .done)
      | none =>
        have eq : resolved = (.error (outOfRange (frameIndex args) frames.length),
            m.setFrameMapping (frameMap frames)) := by
          simp only [resolved, resolveFrameId, hit, stack, there]
        rw [eq]
        exact .step _ (by simp only [InspectPc.next, there]) .done

/-- From the look at the backend slot on. -/
private theorem comes_withFrame {tool : FrameTool} {args : Args}
    {read : Inspector → Int → ToolOutcome}
    (same : ∀ b frameId, read b frameId = readFrame toLowercase args b frameId tool) :
    Comes toLowercase backend m (.frameBackend tool args) (withFrame m args backend read).1
      (withFrame m args backend read).2 := by
  cases backend with
  | none => exact .step _ rfl .done
  | some backend =>
    refine .step (.frameMapping tool args) rfl ?_
    change Comes toLowercase (some backend) m _ _ _
    have comes := @comes_frame toLowercase m backend tool args
    simp only [withFrame]
    cases resolved : resolveFrameId backend m (frameIndex args) with
    | mk result m' =>
      rw [resolved] at comes
      cases result with
      | error e => exact comes
      | ok frameId =>
        simp only [same]
        exact comes

/-- A call that is alone on the session comes to what the handler says. -/
theorem comes_alone (tool : InspectTool) :
    Comes toLowercase backend m (.checkState tool) (tool.handle toLowercase m backend).1
      (tool.handle toLowercase m backend).2 := by
  cases tool with
  | backtrace args => exact comes_backtrace args
  | ofFrame tool args =>
    cases guard : m.checkState [.stopped] with
    | error e =>
      cases tool <;> simp only [InspectTool.handle, FrameTool.handle, handleVariables,
        handleEvaluate, guard] <;>
        exact .step _ (by simp only [InspectPc.next, guard]) .done
    | ok _ =>
      cases tool with
      | readVariables =>
        simp only [InspectTool.handle, FrameTool.handle, handleVariables, guard]
        refine .step (.frameBackend .readVariables args)
          (by simp only [InspectPc.next, guard, checkArgs]) ?_
        exact comes_withFrame fun b frameId => rfl
      | evaluate =>
        simp only [InspectTool.handle, FrameTool.handle, handleEvaluate, guard]
        cases expression : args.requireString "expression" with
        | error e =>
          exact .step _ (by simp only [InspectPc.next, guard, checkArgs, expression,
            Except.map]) .done
        | ok text =>
          refine .step (.frameBackend .evaluate args)
            (by simp only [InspectPc.next, guard, checkArgs, expression, Except.map]) ?_
          exact comes_withFrame fun b frameId => by simp only [readFrame, expression]

end

end LldbDebugMcp.Server.InspectionSteps
