/- module: LldbDebugMcp/Server/Breakpoints
   source: crates/mcp-tools/src/handlers/breakpoints.rs
   digest: The breakpoint handlers, and what each commits to the session. -/

import LldbDebugMcp.Session.Operation
import LldbDebugMcp.Server.Response

set_option autoImplicit false
set_option relaxedAutoImplicit false

namespace LldbDebugMcp.Server.Breakpoints

open LldbDebugMcp.Core.Types
open LldbDebugMcp.Session.Manager
open LldbDebugMcp.Session.Operation
open LldbDebugMcp.Server.Response

/-- A resolved breakpoint of a response. -/
structure BreakpointResult where
  id : Int
  verified : Bool
  line : Int
  message : String
  deriving DecidableEq, Repr

/-- What a request is about: each replaces the whole list of a file, or of the functions. -/
inductive Target where
  | file (file : String)
  | functions
  deriving DecidableEq, Repr

inductive BpRequest where
  | setBreakpoints (file : String) (bps : List SourceBp)
  | setFunctionBreakpoints (bps : List FunctionBp)
  deriving DecidableEq, Repr

def BpRequest.target : BpRequest → Target
  | .setBreakpoints file _ => .file file
  | .setFunctionBreakpoints _ => .functions

/-- How many breakpoints it asks for. -/
def BpRequest.size : BpRequest → Nat
  | .setBreakpoints _ bps => bps.length
  | .setFunctionBreakpoints bps => bps.length

abbrev Answer := Except BackendError (List BreakpointResult)

def OpError.setBreakpoints : OpError := .ofVerb "setBreakpoints"

def OpError.setFunctionBreakpoints : OpError :=
  { OpError.ofVerb "setFunctionBreakpoints" with unexpected := "unexpected response type: " }

/-- The texts of the request that changes a target. -/
def Target.opError : Target → OpError
  | .file _ => OpError.setBreakpoints
  | .functions => OpError.setFunctionBreakpoints

/-- The calls, with their parsed arguments. -/
inductive BpTool where
  | setBreakpoint (file : Except String String) (line : Except String Int) (condition : String)
  | setFunctionBreakpoint (name : Except String String) (condition : String)
  | removeBreakpoint (id : Except String Int)

/-- The change to the active lists that a call asks for; a removal has looked up its entry. -/
inductive Change where
  | addSource (file : String) (line : Int) (condition : String)
  | addFunction (name condition : String)
  | remove (id : Int) (info : BreakpointInfo)
  deriving DecidableEq, Repr

/-- The file's list without the first breakpoint on the line. -/
def remainingSourceBreakpoints (current : List SourceBp) (info : BreakpointInfo) : List SourceBp :=
  current.eraseP fun bp => bp.line = info.line

/-- The list without the first breakpoint on the function. -/
def remainingFunctionBreakpoints (current : List FunctionBp) (info : BreakpointInfo) :
    List FunctionBp :=
  current.eraseP fun bp => bp.name = info.function

/-- The breakpoint of a response that a new source breakpoint is taken to be: the first on the
requested line, else the last. -/
def matchedResult (line : Int) (results : List BreakpointResult) : Option BreakpointResult :=
  (results.find? fun bp => bp.line = line).or results.getLast?

namespace Change

def target : Change → Target
  | .addSource file _ _ => .file file
  | .addFunction _ _ => .functions
  | .remove _ info => if info.ty = "function" then .functions else .file info.file

/-- The list that is sent, made of the active one. -/
def proposed (m : SessionManager) : Change → BpRequest
  | .addSource file line condition =>
    .setBreakpoints file (m.sourceBreakpointsForFile file ++ [⟨line, condition⟩])
  | .addFunction name condition => .setFunctionBreakpoints (m.functionBps ++ [⟨name, condition⟩])
  | .remove _ info =>
    if info.ty = "function" then
      .setFunctionBreakpoints (remainingFunctionBreakpoints m.functionBps info)
    else
      .setBreakpoints info.file
        (remainingSourceBreakpoints (m.sourceBreakpointsForFile info.file) info)

/-- The breakpoint of the response that is recorded; an addition of a source breakpoint fails
without one. -/
def result (results : List BreakpointResult) : Change → Except String (Option BreakpointResult)
  | .addSource _ line _ =>
    match matchedResult line results with
    | some bp => .ok (some bp)
    | none => .error "setBreakpoints response contained no breakpoints"
  | .addFunction _ _ => .ok results.getLast?
  | .remove _ _ => .ok none

/-- The commit to the active lists. A removal also deletes the entry. -/
def commit (m : SessionManager) : Change → Except String SessionManager
  | .addSource file line condition => .ok (m.addSourceBreakpoint file line condition)
  | .addFunction name condition => .ok (m.addFunctionBreakpoint name condition)
  | .remove id _ =>
    match m.removeBreakpointById id with
    | (.ok _, m') => .ok m'
    | (.error e, _) => .error ("failed to remove breakpoint: " ++ e)

/-- The metadata that is recorded for an addition. -/
def info (bp : BreakpointResult) : Change → Option BreakpointInfo
  | .addSource file _ condition =>
    some ⟨bp.id, "source", file, bp.line, "", condition, bp.verified⟩
  | .addFunction name condition => some ⟨bp.id, "function", "", 0, name, condition, bp.verified⟩
  | .remove _ _ => none

/-- The entry for an addition. -/
def record (m : SessionManager) (bp : Option BreakpointResult) (change : Change) :
    SessionManager :=
  match bp.bind change.info with
  | some info => m.addBreakpointResponse info
  | none => m

def response (bp : Option BreakpointResult) : Change → ToolOutcome
  | .addSource file line _ =>
    let bp := bp.getD ⟨0, false, line, ""⟩
    .json (.object
      ([("breakpoint_id", .int bp.id), ("verified", .bool bp.verified), ("file", .string file),
        ("line", .int bp.line)] ++
        if bp.message.isEmpty then [] else [("message", .string bp.message)]))
  | .addFunction name _ =>
    let bp := bp.getD ⟨0, false, 0, ""⟩
    let message :=
      if bp.message.isEmpty then
        if bp.verified then "Breakpoint set on function '" ++ name ++ "'"
        else "Breakpoint on function '" ++ name ++ "' pending verification"
      else bp.message
    .json (.object [("breakpoint_id", .int bp.id), ("verified", .bool bp.verified),
      ("function", .string name), ("message", .string message)])
  | .remove id _ => .json (.object [("removed", .bool true), ("breakpoint_id", .int id)])

/-- What an addition does in an idle session. -/
def pend (m : SessionManager) : Change → SessionManager
  | .addSource file line condition => m.addPendingSourceBreakpoint file line condition
  | .addFunction name condition => m.addPendingFunctionBreakpoint name condition
  | .remove _ _ => m

def pendingResponse : Change → ToolOutcome
  | .addSource file line condition =>
    .json (.object [("status", .string "pending"), ("file", .string file), ("line", .int line),
      ("condition", .string condition),
      ("message", .string "Breakpoint will be set when program is launched")])
  | .addFunction name condition =>
    .json (.object [("status", .string "pending"), ("function", .string name),
      ("condition", .string condition),
      ("message", .string "Function breakpoint will be set when program is launched")])
  | .remove _ _ => .json (.object [])

end Change

namespace BpTool

/-- The states in which the call is allowed. -/
def allowed : BpTool → List State
  | .setBreakpoint .. | .setFunctionBreakpoint .. => [.idle, .stopped]
  | .removeBreakpoint _ => [.stopped]

/-- The change, once the arguments are checked and a removal has looked up its entry. -/
def change (m : SessionManager) : BpTool → Except String Change
  | .setBreakpoint (.error e) _ _ | .setBreakpoint (.ok _) (.error e) _ => .error e
  | .setBreakpoint (.ok file) (.ok line) condition => .ok (.addSource file line condition)
  | .setFunctionBreakpoint (.error e) _ => .error e
  | .setFunctionBreakpoint (.ok name) condition => .ok (.addFunction name condition)
  | .removeBreakpoint (.error e) => .error e
  | .removeBreakpoint (.ok id) =>
    match m.breakpointInfo id with
    | some info => .ok (.remove id info)
    | none =>
      .error ("failed to remove breakpoint: breakpoint ID " ++ toString id ++ " not found")

end BpTool

/-- What a call comes to: its outcome, the session after it, and the request that it sent. -/
structure Handled where
  outcome : ToolOutcome
  session : SessionManager
  sent : Option BpRequest

/-- A call that runs alone, against what the backend in the slot answers. -/
def BpTool.handle (tool : BpTool) (m : SessionManager) (backend : Option (BpRequest → Answer)) :
    Handled :=
  match m.checkState tool.allowed with
  | .error e => ⟨.error e, m, none⟩
  | .ok _ =>
    match tool.change m with
    | .error e => ⟨.error e, m, none⟩
    | .ok change =>
      if m.state = .idle then ⟨change.pendingResponse, change.pend m, none⟩
      else
        match backend with
        | none => ⟨.error change.target.opError.requestFailed, m, none⟩
        | some answer =>
          let request := change.proposed m
          match answer request with
          | .error e => ⟨.error (change.target.opError.render e), m, some request⟩
          | .ok results =>
            match change.result results with
            | .error e => ⟨.error e, m, some request⟩
            | .ok bp =>
              match change.commit m with
              | .error e => ⟨.error e, m, some request⟩
              | .ok m' => ⟨change.response bp, change.record m' bp, some request⟩

def handleSetBreakpoint (m : SessionManager) (backend : Option (BpRequest → Answer))
    (file : Except String String) (line : Except String Int) (condition : String) : Handled :=
  (BpTool.setBreakpoint file line condition).handle m backend

def handleSetFunctionBreakpoint (m : SessionManager) (backend : Option (BpRequest → Answer))
    (name : Except String String) (condition : String) : Handled :=
  (BpTool.setFunctionBreakpoint name condition).handle m backend

def handleRemoveBreakpoint (m : SessionManager) (backend : Option (BpRequest → Answer))
    (id : Except String Int) : Handled :=
  (BpTool.removeBreakpoint id).handle m backend

/-- The points of the three handlers, one await or lock acquisition a step. -/
inductive BreakpointPc where
  | checkState (tool : BpTool)
  /-- Check the arguments; a removal looks up its entry. -/
  | change (tool : BpTool)
  | checkIdle (change : Change)
  | pend (change : Change)
  | currentBackend (change : Change)
  /-- Read the active list, and make the request of it. -/
  | propose (change : Change)
  | sending (change : Change) (request : BpRequest)
  | awaiting (change : Change) (request : BpRequest)
  | commit (change : Change) (bp : Option BreakpointResult)
  | record (change : Change) (bp : Option BreakpointResult)
  | done (outcome : ToolOutcome)

namespace BreakpointPc

/-- The session write of a point. -/
def operation : BreakpointPc → Option Bookkeeping
  | .pend (.addSource file line condition) =>
    some (.addPendingSourceBreakpoint file line condition)
  | .pend (.addFunction name condition) => some (.addPendingFunctionBreakpoint name condition)
  | .commit (.addSource file line condition) _ => some (.addSourceBreakpoint file line condition)
  | .commit (.addFunction name condition) _ => some (.addFunctionBreakpoint name condition)
  | .commit (.remove id _) _ => some (.removeBreakpointById id)
  | .record c bp => (bp.bind c.info).map .addBreakpointResponse
  | _ => none

/-- The next point, given what the session, the backend slot and the answer to the request are
at this one; `none` while the answer has not come. -/
def next (m : SessionManager) (connected : Bool) (answer : Option Answer) :
    BreakpointPc → Option BreakpointPc
  | .checkState tool =>
    match m.checkState tool.allowed with
    | .error e => some (.done (.error e))
    | .ok _ => some (.change tool)
  | .change tool =>
    match tool.change m with
    | .error e => some (.done (.error e))
    -- A removal is not allowed in an idle session.
    | .ok (.remove id info) => some (.currentBackend (.remove id info))
    | .ok c => some (.checkIdle c)
  | .checkIdle c => some (if m.state = .idle then .pend c else .currentBackend c)
  | .pend c => some (.done c.pendingResponse)
  | .currentBackend c =>
    some (if connected then .propose c else .done (.error c.target.opError.requestFailed))
  | .propose c => some (.sending c (c.proposed m))
  | .sending c request => some (.awaiting c request)
  | .awaiting c _ =>
    answer.map fun
      | .error e => .done (.error (c.target.opError.render e))
      | .ok results =>
        match c.result results with
        | .error e => .done (.error e)
        | .ok bp => .commit c bp
  | .commit c bp =>
    match c.commit m with
    | .error e => some (.done (.error e))
    | .ok _ => some (.record c bp)
  | .record c bp => some (.done (c.response bp))
  | .done _ => none

/-- What a step writes to the adapter. -/
def written : BreakpointPc → List BpRequest
  | .sending _ request => [request]
  | _ => []

/-- The session after a step. -/
def write (m : SessionManager) (pc : BreakpointPc) : SessionManager :=
  applyOption m (pc.operation.map .bookkeeping)

end BreakpointPc

/-- The active list of a target, as the request that would set it. -/
def current (m : SessionManager) : Target → BpRequest
  | .file file => .setBreakpoints file (m.sourceBreakpointsForFile file)
  | .functions => .setFunctionBreakpoints m.functionBps

/-- A removal names an entry that is there. -/
def Change.Stands (m : SessionManager) : Change → Prop
  | .addSource .. | .addFunction .. => True
  | .remove id info =>
    m.breakpointInfo id = some info ∧ (info.ty = "source" ∨ info.ty = "function")

/-- The entries are of the two kinds that the handlers make. -/
def Typed (m : SessionManager) : Prop :=
  ∀ id info, m.breakpointInfo id = some info → info.ty = "source" ∨ info.ty = "function"

/-- The map after a commit, before an entry is made. -/
def Change.mapAfter (m : SessionManager) : Change → AList (fun _ : Int => BreakpointInfo)
  | .addSource .. | .addFunction .. => m.bpResponses
  | .remove id _ => m.bpResponses.erase id

section

variable {m m' : SessionManager} {change : Change}

@[simp] theorem current_target (target : Target) : (current m target).target = target := by
  cases target <;> rfl

theorem proposed_target (change : Change) : (change.proposed m).target = change.target := by
  cases change with
  | addSource | addFunction => rfl
  | remove id info =>
    simp only [Change.proposed, Change.target]
    split <;> rfl

/-- What is proposed depends on the active list of the target alone. -/
theorem proposed_congr (same : current m' change.target = current m change.target) :
    change.proposed m' = change.proposed m := by
  cases change with
  | addSource file line condition =>
    simp only [Change.target, current, BpRequest.setBreakpoints.injEq, true_and] at same
    simp only [Change.proposed, same]
  | addFunction name condition =>
    simp only [Change.target, current, BpRequest.setFunctionBreakpoints.injEq] at same
    simp only [Change.proposed, same]
  | remove id info =>
    by_cases function : info.ty = "function"
    · simp only [Change.target, if_pos function, current,
        BpRequest.setFunctionBreakpoints.injEq] at same
      simp only [Change.proposed, if_pos function, same]
    · simp only [Change.target, if_neg function, current, BpRequest.setBreakpoints.injEq,
        true_and] at same
      simp only [Change.proposed, if_neg function, same]

/-- What the file's list has become, and the lists of other files. -/
private theorem current_insert {file : String} {bps : List SourceBp}
    (sources : m'.sourceBps = m.sourceBps.insert file bps)
    (functions : m'.functionBps = m.functionBps) :
    current m' (.file file) = .setBreakpoints file bps ∧
      ∀ target, target ≠ .file file → current m' target = current m target := by
  refine ⟨?_, fun target ne => ?_⟩
  · simp only [current, SessionManager.sourceBreakpointsForFile, sources, AList.lookup_insert,
      Option.getD_some]
  · cases target with
    | file path =>
      have other : path ≠ file := fun eq => ne (congrArg Target.file eq)
      simp only [current, SessionManager.sourceBreakpointsForFile, sources,
        AList.lookup_insert_ne other]
    | functions => simp only [current, functions]

private theorem current_functions (sources : m'.sourceBps = m.sourceBps) :
    ∀ target, target ≠ .functions → current m' target = current m target := by
  intro target ne
  cases target with
  | file path => simp only [current, SessionManager.sourceBreakpointsForFile, sources]
  | functions => exact absurd rfl ne

private theorem remove_commits {id : Int} {info : BreakpointInfo}
    (stands : (Change.remove id info).Stands m) : ∃ m', (Change.remove id info).commit m = .ok m' ∧
      current m' (Change.remove id info).target = (Change.remove id info).proposed m ∧
      (∀ target, target ≠ (Change.remove id info).target → current m' target = current m target) ∧
      m'.bpResponses = m.bpResponses.erase id ∧ m'.state = m.state := by
  obtain ⟨here, typed⟩ := stands
  have found : m.bpResponses.lookup id = some info := here
  rcases typed with source | function
  · have function : info.ty ≠ "function" := by
      rw [source]
      decide
    simp only [Change.commit, SessionManager.removeBreakpointById, found, if_pos source,
      Change.target, if_neg function, Change.proposed, remainingSourceBreakpoints,
      SessionManager.sourceBreakpointsForFile]
    cases there : m.sourceBps.lookup info.file with
    | none =>
      refine ⟨_, rfl, ?_, fun target _ => ?_, rfl, rfl⟩
      · simp [current, SessionManager.sourceBreakpointsForFile, there]
      · cases target <;> rfl
    | some bps =>
      obtain ⟨self, others⟩ := @current_insert m
        { m with
          bpResponses := m.bpResponses.erase id
          sourceBps := m.sourceBps.insert info.file (bps.eraseP fun bp => bp.line = info.line) }
        info.file _ rfl rfl
      exact ⟨_, rfl, self, others, rfl, rfl⟩
  · have source : info.ty ≠ "source" := by
      rw [function]
      decide
    simp only [Change.commit, SessionManager.removeBreakpointById, found, if_neg source,
      if_pos function, Change.target, Change.proposed, remainingFunctionBreakpoints]
    exact ⟨_, rfl, rfl, current_functions rfl, rfl, rfl⟩

/-- A commit makes the proposed list the active one, and leaves the other lists alone. -/
theorem Change.commits (stands : change.Stands m) : ∃ m', change.commit m = .ok m' ∧
    current m' change.target = change.proposed m ∧
    (∀ target, target ≠ change.target → current m' target = current m target) ∧
    m'.bpResponses = change.mapAfter m ∧ m'.state = m.state := by
  cases change with
  | addSource file line condition =>
    obtain ⟨self, others⟩ := @current_insert m (m.addSourceBreakpoint file line condition) file _
      rfl rfl
    exact ⟨_, rfl, self, others, rfl, rfl⟩
  | addFunction name condition => exact ⟨_, rfl, rfl, current_functions rfl, rfl, rfl⟩
  | remove id info => exact remove_commits stands

/-- The entry for an addition does not touch the lists. -/
@[simp] theorem current_record (bp : Option BreakpointResult) (target : Target) :
    current (change.record m bp) target = current m target := by
  unfold Change.record
  split
  · cases target <;> rfl
  · rfl

/-! The writes of the points. -/

theorem write_pend (change : Change) : BreakpointPc.write m (.pend change) = change.pend m := by
  cases change <;> rfl

theorem write_commit {bp : Option BreakpointResult} (commits : change.commit m = .ok m') :
    BreakpointPc.write m (.commit change bp) = m' := by
  cases change with
  | addSource | addFunction =>
    obtain rfl := Except.ok.inj commits
    rfl
  | remove id info =>
    simp only [Change.commit] at commits
    change (m.removeBreakpointById id).2 = m'
    split at commits
    · rename_i removed
      obtain rfl := Except.ok.inj commits
      rw [removed]
    · cases commits

/-- A removal whose entry has gone writes nothing. -/
theorem write_commit_error {bp : Option BreakpointResult} {e : String}
    (fails : change.commit m = .error e) : BreakpointPc.write m (.commit change bp) = m := by
  cases change with
  | addSource | addFunction => cases fails
  | remove id info =>
    change (m.removeBreakpointById id).2 = m
    simp only [Change.commit, SessionManager.removeBreakpointById] at fails ⊢
    cases there : m.bpResponses.lookup id with
    | none => rfl
    | some found =>
      rw [there] at fails
      simp only at fails
      by_cases source : found.ty = "source"
      · rw [if_pos source] at fails
        cases list : m.sourceBps.lookup found.file <;> rw [list] at fails <;> cases fails
      · rw [if_neg source] at fails
        by_cases function : found.ty = "function"
        · rw [if_pos function] at fails
          cases fails
        · rw [if_neg function] at fails
          cases fails

theorem write_record (bp : Option BreakpointResult) (change : Change) :
    BreakpointPc.write m (.record change bp) = change.record m bp := by
  change applyOption m (((bp.bind change.info).map .addBreakpointResponse).map .bookkeeping) = _
  unfold Change.record
  cases bp.bind change.info <;> rfl

private theorem removed_info {id id' : Int} {info : BreakpointInfo}
    (here : (m.removeBreakpointById id).2.breakpointInfo id' = some info) :
    m.breakpointInfo id' = some info := by
  have erased : ∀ m' : SessionManager, m'.bpResponses = m.bpResponses.erase id →
      m'.breakpointInfo id' = some info → m.breakpointInfo id' = some info := by
    intro m' map there
    by_cases same : id' = id
    · subst same
      rw [SessionManager.breakpointInfo, map, AList.lookup_erase] at there
      cases there
    · rwa [SessionManager.breakpointInfo, map, AList.lookup_erase_ne same] at there
  unfold SessionManager.removeBreakpointById at here
  split at here
  · exact here
  · split at here
    · split at here <;> exact erased _ rfl here
    · split at here <;> exact erased _ rfl here

theorem typed_write (typed : Typed m) (pc : BreakpointPc) : Typed (pc.write m) := by
  cases pc with
  | pend change =>
    rw [write_pend]
    cases change <;> exact typed
  | commit change bp =>
    cases change with
    | addSource | addFunction => exact typed
    | remove id info => exact fun id' info' here => typed id' info' (removed_info here)
  | record change bp =>
    rw [write_record]
    unfold Change.record
    split
    · rename_i info recorded
      intro id' info' here
      by_cases same : id' = info.id
      · subst same
        rw [SessionManager.breakpointInfo, SessionManager.addBreakpointResponse,
          AList.lookup_insert] at here
        obtain rfl := Option.some.inj here
        obtain ⟨result, -, made⟩ := Option.bind_eq_some_iff.mp recorded
        cases change with
        | addSource => exact .inl (congrArg BreakpointInfo.ty (Option.some.inj made)).symm
        | addFunction => exact .inr (congrArg BreakpointInfo.ty (Option.some.inj made)).symm
        | remove => cases made
      · rw [SessionManager.breakpointInfo, SessionManager.addBreakpointResponse,
          AList.lookup_insert_ne same] at here
        exact typed id' info' here
    · exact typed
  | _ => exact typed

/-- A breakpoint tool that its check lets past in a session that is not idle finds it
stopped. -/
theorem stopped_of_allowed {tool : BpTool} (guard : m.checkState tool.allowed = .ok ())
    (active : m.state ≠ .idle) : m.state = .stopped := by
  have allowed := SessionManager.checkState_ok.mp guard
  cases tool with
  | setBreakpoint | setFunctionBreakpoint => simpa [BpTool.allowed, active] using allowed
  | removeBreakpoint => simpa [BpTool.allowed] using allowed

/-- A removal is not let past its check in an idle session. -/
theorem not_idle_of_remove {tool : BpTool} {id : Int} {info : BreakpointInfo}
    (guard : m.checkState tool.allowed = .ok ()) (asks : tool.change m = .ok (.remove id info)) :
    m.state ≠ .idle := by
  intro idle
  have allowed := SessionManager.checkState_ok.mp guard
  rw [idle] at allowed
  cases tool with
  | setBreakpoint file line => cases file <;> cases line <;> cases asks
  | setFunctionBreakpoint name => cases name <;> cases asks
  | removeBreakpoint => simp [BpTool.allowed] at allowed

/-- Every way a call can go: the session that it leaves, and the request that it sends. -/
inductive Handles (m : SessionManager) (backend : Option (BpRequest → Answer)) (tool : BpTool) :
    SessionManager → Option BpRequest → Prop where
  | refused : Handles m backend tool m none
  | pended {change : Change} (idle : m.state = .idle) (asks : tool.change m = .ok change) :
      Handles m backend tool (change.pend m) none
  /-- The request fails, or the response is of no use, or there is nothing to commit. -/
  | failed {change : Change} {answer : BpRequest → Answer} (stopped : m.state = .stopped)
      (asks : tool.change m = .ok change) (slot : backend = some answer)
      (fails : ∀ results bp m', answer (change.proposed m) = .ok results →
        change.result results = .ok bp → change.commit m ≠ .ok m') :
      Handles m backend tool m (some (change.proposed m))
  | committed {change : Change} {answer : BpRequest → Answer} {results : List BreakpointResult}
      {bp : Option BreakpointResult} {m' : SessionManager} (stopped : m.state = .stopped)
      (asks : tool.change m = .ok change) (slot : backend = some answer)
      (answered : answer (change.proposed m) = .ok results)
      (result : change.result results = .ok bp) (commits : change.commit m = .ok m') :
      Handles m backend tool (change.record m' bp) (some (change.proposed m))

/-- The inversion of `handle`. -/
theorem handles (tool : BpTool) (m : SessionManager) (backend : Option (BpRequest → Answer)) :
    Handles m backend tool (tool.handle m backend).session (tool.handle m backend).sent := by
  unfold BpTool.handle
  cases guard : m.checkState tool.allowed with
  | error e => exact .refused
  | ok _ =>
    cases asks : tool.change m with
    | error e => exact .refused
    | ok change =>
      by_cases idle : m.state = .idle
      · simp only [if_pos idle]
        exact .pended idle asks
      · have stopped := stopped_of_allowed guard idle
        simp only [if_neg idle]
        cases slot : backend with
        | none => exact .refused
        | some answer =>
          have failed := @Handles.failed m (some answer) tool change answer stopped asks rfl
          cases answered : answer (change.proposed m) with
          | error e =>
            simp only [answered]
            exact failed fun _ _ _ h => by
              rw [answered] at h
              cases h
          | ok results =>
            simp only [answered]
            cases result : change.result results with
            | error e =>
              refine failed fun _ _ _ h h' => ?_
              obtain rfl := Except.ok.inj (answered.symm.trans h)
              rw [result] at h'
              cases h'
            | ok bp =>
              cases commits : change.commit m with
              | error e =>
                exact failed fun _ _ _ _ _ h => by
                  rw [commits] at h
                  cases h
              | ok m' => exact .committed stopped asks rfl answered result commits

end

end LldbDebugMcp.Server.Breakpoints
