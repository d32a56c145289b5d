/- module: LldbDebugMcp/Session/Operation
   source: crates/mcp-session/src/manager.rs
   digest: The atomic operations on a session, one lock acquisition each, and what each leaves
   alone. -/

import LldbDebugMcp.Session.Manager

set_option autoImplicit false
set_option relaxedAutoImplicit false

namespace LldbDebugMcp.Session.Operation

open LldbDebugMcp.Core.Types
open LldbDebugMcp.Session.Manager

/-- The session writes of the breakpoint, inspection and output tools. None of them
concerns the state machine or the stop and exit caches. -/
inductive Bookkeeping where
  | setFrameMapping (mapping : AList (fun _ : Int => Int))
  | addSourceBreakpoint (file : String) (line : Int) (condition : String)
  | addFunctionBreakpoint (name condition : String)
  | addBreakpointResponse (info : BreakpointInfo)
  | removeBreakpointById (id : Int)
  | addPendingSourceBreakpoint (file : String) (line : Int) (condition : String)
  | addPendingFunctionBreakpoint (name condition : String)
  | drainOutput

/-- A write of the session under one of its two locks. -/
inductive SessionOp where
  | setState (state : State)
  | setStateIfGeneration (generation : UInt64) (state : State)
  | terminateIfGeneration (generation : UInt64) (code : Option Int)
  | resetInner
  | resetOutput
  | setProgram (program : String)
  | setPid (pid : Int)
  | setLastStopped (info : StopInfo)
  | flushPendingBreakpoints
  | appendOutput (category text : String)
  | drainOutput
  | bookkeeping (op : Bookkeeping)

def Bookkeeping.apply (m : SessionManager) : Bookkeeping → SessionManager
  | .setFrameMapping mapping => m.setFrameMapping mapping
  | .addSourceBreakpoint file line condition => m.addSourceBreakpoint file line condition
  | .addFunctionBreakpoint name condition => m.addFunctionBreakpoint name condition
  | .addBreakpointResponse info => m.addBreakpointResponse info
  | .removeBreakpointById id => (m.removeBreakpointById id).2
  | .addPendingSourceBreakpoint file line condition =>
    m.addPendingSourceBreakpoint file line condition
  | .addPendingFunctionBreakpoint name condition => m.addPendingFunctionBreakpoint name condition
  | .drainOutput => { m with output := m.output.drain.2 }

def SessionOp.apply (m : SessionManager) : SessionOp → SessionManager
  | .setState state => m.setState state
  | .setStateIfGeneration generation state => (m.setStateIfGeneration generation state).1
  | .terminateIfGeneration generation code => (m.terminateIfGeneration generation code).1
  | .resetInner => m.resetInner
  | .resetOutput => m.resetOutput
  | .setProgram program => m.setProgram program
  | .setPid pid => m.setPid pid
  | .setLastStopped info => m.setLastStopped info
  | .flushPendingBreakpoints => m.flushPendingBreakpoints.2
  | .appendOutput category text => { m with output := m.output.append category text }
  | .drainOutput => { m with output := m.output.drain.2 }
  | .bookkeeping op => op.apply m

def SessionOp.isReset : SessionOp → Bool
  | .resetInner => true
  | _ => false

theorem SessionOp.isReset_iff {op : SessionOp} : op.isReset = true ↔ op = .resetInner := by
  cases op <;> simp [SessionOp.isReset]

/-- An optional operation: a step of the server that leaves the session alone has none. -/
def applyOption (m : SessionManager) : Option SessionOp → SessionManager
  | none => m
  | some op => op.apply m

/-- The fields that the state machine and its caches consist of. -/
structure Core where
  state : State
  generation : UInt64
  exitCode : Option Int
  lastStopped : Option StopInfo
  deriving DecidableEq

def core (m : SessionManager) : Core := ⟨m.state, m.generation, m.exitCode, m.lastStopped⟩

theorem removeBreakpointById_core (m : SessionManager) (id : Int) :
    core (m.removeBreakpointById id).2 = core m := by
  unfold SessionManager.removeBreakpointById
  split
  · rfl
  · split
    · split <;> rfl
    · split <;> rfl

theorem bookkeeping_core (m : SessionManager) (op : Bookkeeping) : core (op.apply m) = core m := by
  cases op with
  | removeBreakpointById id => exact removeBreakpointById_core m id
  | _ => rfl

/-- The operations on the output buffer. -/
def SessionOp.touchesOutput : SessionOp → Bool
  | .appendOutput .. | .drainOutput | .resetOutput | .bookkeeping .drainOutput => true
  | _ => false

theorem removeBreakpointById_output (m : SessionManager) (id : Int) :
    (m.removeBreakpointById id).2.output = m.output := by
  unfold SessionManager.removeBreakpointById
  split
  · rfl
  · split
    · split <;> rfl
    · split <;> rfl

theorem apply_output {m : SessionManager} {op : SessionOp} (outside : op.touchesOutput = false) :
    (op.apply m).output = m.output := by
  cases op with
  | setStateIfGeneration | terminateIfGeneration =>
    simp only [SessionOp.apply, SessionManager.setStateIfGeneration,
      SessionManager.terminateIfGeneration]
    split <;> rfl
  | appendOutput | drainOutput | resetOutput => cases outside
  | bookkeeping b =>
    cases b with
    | drainOutput => cases outside
    | removeBreakpointById id => exact removeBreakpointById_output m id
    | _ => rfl
  | _ => rfl

/-- Only `resetInner` moves the epoch. -/
theorem apply_generation (m : SessionManager) (op : SessionOp) (h : op ≠ .resetInner) :
    (op.apply m).generation = m.generation := by
  cases op with
  | resetInner => exact absurd rfl h
  | setStateIfGeneration g st =>
    simp only [SessionOp.apply, SessionManager.setStateIfGeneration]
    split <;> rfl
  | terminateIfGeneration g code =>
    simp only [SessionOp.apply, SessionManager.terminateIfGeneration]
    split <;> rfl
  | bookkeeping op => exact congrArg Core.generation (bookkeeping_core m op)
  | _ => rfl

/-- The state that an operation writes when it takes effect. -/
def SessionOp.target (m : SessionManager) : SessionOp → Option State
  | .setState st => some st
  | .setStateIfGeneration g st => if m.generation = g then some st else none
  | .terminateIfGeneration g _ => if m.generation = g then some .terminated else none
  | .resetInner => some .idle
  | _ => none

theorem apply_state (m : SessionManager) (op : SessionOp) :
    (op.apply m).state = (op.target m).getD m.state := by
  cases op with
  | setStateIfGeneration g st =>
    simp only [SessionOp.apply, SessionManager.setStateIfGeneration, SessionOp.target]
    by_cases h : m.generation = g <;> simp [h]
  | terminateIfGeneration g code =>
    simp only [SessionOp.apply, SessionManager.terminateIfGeneration, SessionOp.target]
    by_cases h : m.generation = g <;> simp [h]
  | bookkeeping op => exact congrArg Core.state (bookkeeping_core m op)
  | _ => rfl

/-- A guarded write with a stale epoch changes nothing. -/
theorem setStateIfGeneration_stale {m : SessionManager} {g : UInt64} (st : State)
    (h : m.generation ≠ g) : (SessionOp.setStateIfGeneration g st).apply m = m := by
  simp [SessionOp.apply, SessionManager.setStateIfGeneration, h]

theorem terminateIfGeneration_stale {m : SessionManager} {g : UInt64} (code : Option Int)
    (h : m.generation ≠ g) : (SessionOp.terminateIfGeneration g code).apply m = m := by
  simp [SessionOp.apply, SessionManager.terminateIfGeneration, h]

/-- One more bump of a 64-bit counter is always a different value. -/
theorem generation_succ_ne (g : UInt64) : g + 1 ≠ g := by
  intro h
  have hn := congrArg UInt64.toNat h
  have hlt := g.toNat_lt
  simp only [UInt64.toNat_add, UInt64.toNat_one] at hn
  omega

end LldbDebugMcp.Session.Operation
