/- module: LldbDebugMcp/Session/Manager
   source: crates/mcp-session/src/{state,manager,breakpoint}.rs
   digest: The session manager: state machine, generation epoch, caches and breakpoints. -/

import Mathlib.Data.List.AList
import LldbDebugMcp.Core.Types
import LldbDebugMcp.Session.Output

set_option autoImplicit false
set_option relaxedAutoImplicit false

namespace LldbDebugMcp.Session.Manager

open LldbDebugMcp.Core.Types
open LldbDebugMcp.Session.Output (OutputBuffer OutputEntry)

/-- The five session states. Transitions are unconditional; guarding is a read. -/
inductive State where
  | idle
  | configuring
  | stopped
  | running
  | terminated
  deriving DecidableEq, Repr

def State.display : State → String
  | .idle => "idle"
  | .configuring => "configuring"
  | .stopped => "stopped"
  | .running => "running"
  | .terminated => "terminated"

/-- Resolved breakpoint metadata, keyed by the id that the debugger assigned. -/
structure BreakpointInfo where
  id : Int
  ty : String
  file : String
  line : Int
  function : String
  condition : String
  verified : Bool
  deriving DecidableEq, Repr

/-- `Inner` and the output buffer. Each has its own lock, so an operation below
touches only one of the two; `generation` is the 64-bit epoch that `reset` bumps. -/
structure SessionManager where
  state : State
  generation : UInt64
  program : String
  pid : Int
  exitCode : Option Int
  lastStopped : Option StopInfo
  frameMapping : AList (fun _ : Int => Int)
  sourceBps : AList (fun _ : String => List SourceBp)
  functionBps : List FunctionBp
  bpResponses : AList (fun _ : Int => BreakpointInfo)
  pendingSourceBps : AList (fun _ : String => List SourceBp)
  pendingFunctionBps : List FunctionBp
  output : OutputBuffer

namespace SessionManager

def new : SessionManager where
  state := .idle
  generation := 0
  program := ""
  pid := 0
  exitCode := none
  lastStopped := none
  frameMapping := ∅
  sourceBps := ∅
  functionBps := []
  bpResponses := ∅
  pendingSourceBps := ∅
  pendingFunctionBps := []
  output := OutputBuffer.new

/-- Set the state with no transition validation. -/
def setState (m : SessionManager) (state : State) : SessionManager := { m with state := state }

/-- Set the state only while `generation` is the current epoch; the check and the
write are under one lock. -/
def setStateIfGeneration (m : SessionManager) (generation : UInt64) (state : State) :
    SessionManager × Bool :=
  if m.generation ≠ generation then (m, false) else ({ m with state := state }, true)

/-- The guard: succeed in an allowed state, else the error text of the current one. -/
def checkState (m : SessionManager) (allowed : List State) : Except String Unit :=
  if m.state ∈ allowed then .ok ()
  else match m.state with
    | .idle => .error "no debug session active. Use 'launch' or 'attach' first."
    | .running => .error "process is running. Use 'pause' first."
    | current =>
      .error ("invalid state: " ++ current.display ++ ", expected one of: " ++
        String.intercalate ", " (allowed.map State.display))

/-- The part of `reset` under the session lock: everything back to idle and the
epoch bumped (wrapping at `2 ^ 64`). -/
def resetInner (m : SessionManager) : SessionManager :=
  { new with generation := m.generation + 1, output := m.output }

/-- The part of `reset` under the lock of the output buffer. -/
def resetOutput (m : SessionManager) : SessionManager := { m with output := m.output.drain.2 }

def setProgram (m : SessionManager) (program : String) : SessionManager :=
  { m with program := program }

def setPid (m : SessionManager) (pid : Int) : SessionManager := { m with pid := pid }

/-- Record the exit code and set `terminated`, only while `generation` is current. -/
def terminateIfGeneration (m : SessionManager) (generation : UInt64) (code : Option Int) :
    SessionManager × Bool :=
  if m.generation ≠ generation then (m, false)
  else ({ m with exitCode := code <|> m.exitCode, state := .terminated }, true)

def setLastStopped (m : SessionManager) (info : StopInfo) : SessionManager :=
  { m with lastStopped := some info }

def setFrameMapping (m : SessionManager) (mapping : AList (fun _ : Int => Int)) :
    SessionManager :=
  { m with frameMapping := mapping }

/-- Push onto the list of a file, starting from the empty list. -/
def pushSource (bps : AList (fun _ : String => List SourceBp)) (file : String)
    (more : List SourceBp) : AList (fun _ : String => List SourceBp) :=
  bps.insert file ((bps.lookup file).getD [] ++ more)

def addSourceBreakpoint (m : SessionManager) (file : String) (line : Int)
    (condition : String) : SessionManager :=
  { m with sourceBps := pushSource m.sourceBps file [⟨line, condition⟩] }

def addFunctionBreakpoint (m : SessionManager) (name condition : String) : SessionManager :=
  { m with functionBps := m.functionBps ++ [⟨name, condition⟩] }

def addBreakpointResponse (m : SessionManager) (info : BreakpointInfo) : SessionManager :=
  { m with bpResponses := m.bpResponses.insert info.id info }

/-- The active list of a file. -/
def sourceBreakpointsForFile (m : SessionManager) (file : String) : List SourceBp :=
  (m.sourceBps.lookup file).getD []

def breakpointInfo (m : SessionManager) (id : Int) : Option BreakpointInfo :=
  m.bpResponses.lookup id

/-- All tracked metadata, sorted by id. -/
def listBreakpoints (m : SessionManager) : List BreakpointInfo :=
  (m.bpResponses.entries.map Sigma.snd).mergeSort fun a b => a.id ≤ b.id

/-- Remove a tracked breakpoint: source ones by line, function ones by name, the
first match of the active list. -/
def removeBreakpointById (m : SessionManager) (id : Int) :
    Except String (String × Bool) × SessionManager :=
  match m.bpResponses.lookup id with
  | none => (.error ("breakpoint ID " ++ toString id ++ " not found"), m)
  | some info =>
    let m' := { m with bpResponses := m.bpResponses.erase id }
    if info.ty = "source" then
      match m.sourceBps.lookup info.file with
      | none => (.ok (info.file, false), m')
      | some bps =>
        (.ok (info.file, false),
          { m' with
            sourceBps :=
              m.sourceBps.insert info.file (bps.eraseP (fun bp => bp.line = info.line)) })
    else if info.ty = "function" then
      (.ok ("", true),
        { m' with functionBps := m.functionBps.eraseP (fun bp => bp.name = info.function) })
    else (.ok ("", false), m')

def addPendingSourceBreakpoint (m : SessionManager) (file : String) (line : Int)
    (condition : String) : SessionManager :=
  { m with pendingSourceBps := pushSource m.pendingSourceBps file [⟨line, condition⟩] }

def addPendingFunctionBreakpoint (m : SessionManager) (name condition : String) :
    SessionManager :=
  { m with pendingFunctionBps := m.pendingFunctionBps ++ [⟨name, condition⟩] }

/-- Move the pending breakpoints into the active lists and return them. -/
def flushPendingBreakpoints (m : SessionManager) :
    (List (String × List SourceBp) × List FunctionBp) × SessionManager :=
  let files := m.pendingSourceBps.entries.map fun e => (e.1, e.2)
  ((files, m.pendingFunctionBps),
    { m with
      pendingSourceBps := ∅
      pendingFunctionBps := []
      sourceBps := files.foldl (fun bps e => pushSource bps e.1 e.2) m.sourceBps
      functionBps := m.functionBps ++ m.pendingFunctionBps })

theorem checkState_ok {m : SessionManager} {allowed : List State} :
    m.checkState allowed = .ok () ↔ m.state ∈ allowed := by
  unfold checkState
  constructor
  · intro h
    by_contra hne
    rw [if_neg hne] at h
    split at h <;> simp at h
  · intro h
    rw [if_pos h]

theorem checkState_error {m : SessionManager} {allowed : List State} {e : String}
    (h : m.checkState allowed = .error e) : m.state ∉ allowed := by
  intro hm
  rw [checkState_ok.mpr hm] at h
  cases h

end SessionManager

end LldbDebugMcp.Session.Manager
