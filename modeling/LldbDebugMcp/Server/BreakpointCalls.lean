/- module: LldbDebugMcp/Server/BreakpointCalls
   source: crates/mcp-tools/src/handlers/breakpoints.rs
   digest: A breakpoint call that runs alone: what it changes, what it reports, and what a
   removal undoes. -/

import LldbDebugMcp.Server.Arguments
import LldbDebugMcp.Server.Breakpoints

set_option autoImplicit false
set_option relaxedAutoImplicit false

namespace LldbDebugMcp.Server.BreakpointCalls

open LldbDebugMcp.Core.Types
open LldbDebugMcp.Session.Manager
open LldbDebugMcp.Server.Response
open LldbDebugMcp.Server.Arguments
open LldbDebugMcp.Server.Breakpoints

/-- The handlers that change breakpoints. -/
inductive BpHandler where
  | setBreakpoint
  | setFunctionBreakpoint
  | removeBreakpoint
  deriving DecidableEq, Repr

namespace BpHandler

/-- The call, with its arguments read. -/
def tool (args : Args) : BpHandler → BpTool
  | .setBreakpoint =>
    .setBreakpoint (args.requireString "file") (args.requirePositiveInt "line")
      (args.getString "condition" "")
  | .setFunctionBreakpoint =>
    .setFunctionBreakpoint (args.requireString "name") (args.getString "condition" "")
  | .removeBreakpoint => .removeBreakpoint (args.requireInt "breakpoint_id")

def call (handler : BpHandler) (args : Args) (m : SessionManager)
    (backend : Option (BpRequest → Answer)) : Handled :=
  (handler.tool args).handle m backend

/-- The list that a call is about: the one of the file that is named, or recorded. -/
def target (args : Args) (m : SessionManager) : BpHandler → Option Target
  | .setBreakpoint => (args.requireString "file").toOption.map .file
  | .setFunctionBreakpoint => some .functions
  | .removeBreakpoint =>
    ((args.requireInt "breakpoint_id").toOption.bind m.breakpointInfo).map fun info =>
      if info.ty = "function" then .functions else .file info.file

end BpHandler

/-- Two sessions differ at most in the pending list of a target. -/
structure Pends (m m' : SessionManager) (target : Target) : Prop where
  files : ∀ file, target ≠ .file file →
    m'.pendingSourceBps.lookup file = m.pendingSourceBps.lookup file
  functions : target ≠ .functions → m'.pendingFunctionBps = m.pendingFunctionBps
  rest : m' = { m with
    pendingSourceBps := m'.pendingSourceBps
    pendingFunctionBps := m'.pendingFunctionBps }

/-- Two sessions differ at most in the active list that a request sets, which has become what it
asks for, and in the entry of an id. -/
structure Commits (m m' : SessionManager) (request : BpRequest) (id : Int) : Prop where
  list : current m' request.target = request
  files : ∀ file, request.target ≠ .file file →
    m'.sourceBps.lookup file = m.sourceBps.lookup file
  functions : request.target ≠ .functions → m'.functionBps = m.functionBps
  entries : ∀ id', id' ≠ id → m'.breakpointInfo id' = m.breakpointInfo id'
  rest : m' = { m with
    sourceBps := m'.sourceBps
    functionBps := m'.functionBps
    bpResponses := m'.bpResponses }

/-- The id that a change reports. -/
def reported (bp : Option BreakpointResult) : Change → Int
  | .addSource .. | .addFunction .. => (bp.map BreakpointResult.id).getD 0
  | .remove id _ => id

section

variable {m m' : SessionManager} {change : Change} {tool : BpTool}
  {backend : Option (BpRequest → Answer)}

/-! What a commit leaves alone, field by field. -/

private theorem remove_found {id : Int} {info : BreakpointInfo}
    (stands : (Change.remove id info).Stands m)
    (commits : (Change.remove id info).commit m = .ok m') :
    (info.ty = "source" ∧ m'.functionBps = m.functionBps ∧
        ∀ file, file ≠ info.file → m'.sourceBps.lookup file = m.sourceBps.lookup file) ∨
      (info.ty = "function" ∧ m'.sourceBps = m.sourceBps) := by
  obtain ⟨here, typed⟩ := stands
  have found : m.bpResponses.lookup id = some info := here
  simp only [Change.commit, SessionManager.removeBreakpointById, found] at commits
  rcases typed with source | function
  · refine .inl ⟨source, ?_⟩
    rw [if_pos source] at commits
    cases there : m.sourceBps.lookup info.file with
    | none =>
      rw [there] at commits
      obtain rfl := Except.ok.inj commits
      exact ⟨rfl, fun _ _ => rfl⟩
    | some bps =>
      rw [there] at commits
      obtain rfl := Except.ok.inj commits
      exact ⟨rfl, fun file ne => AList.lookup_insert_ne ne⟩
  · refine .inr ⟨function, ?_⟩
    rw [if_neg (by rw [function]; decide), if_pos function] at commits
    obtain rfl := Except.ok.inj commits
    rfl

private theorem commit_files (stands : change.Stands m) (commits : change.commit m = .ok m')
    (file : String) (other : change.target ≠ .file file) :
    m'.sourceBps.lookup file = m.sourceBps.lookup file := by
  cases change with
  | addSource path line condition =>
    obtain rfl := Except.ok.inj commits
    exact AList.lookup_insert_ne fun same => other (congrArg Target.file same.symm)
  | addFunction name condition =>
    obtain rfl := Except.ok.inj commits
    rfl
  | remove id info =>
    rcases remove_found stands commits with ⟨source, -, same⟩ | ⟨-, same⟩
    · refine same file fun eq => other ?_
      rw [Change.target, if_neg (by rw [source]; decide), eq]
    · rw [same]

private theorem commit_functions (stands : change.Stands m) (commits : change.commit m = .ok m')
    (other : change.target ≠ .functions) : m'.functionBps = m.functionBps := by
  cases change with
  | addSource file line condition =>
    obtain rfl := Except.ok.inj commits
    rfl
  | addFunction name condition => exact absurd rfl other
  | remove id info =>
    rcases remove_found stands commits with ⟨-, same, -⟩ | ⟨function, -⟩
    · exact same
    · exact absurd (if_pos function) other

private theorem commit_rest (commits : change.commit m = .ok m') :
    m' = { m with
      sourceBps := m'.sourceBps
      functionBps := m'.functionBps
      bpResponses := m'.bpResponses } := by
  cases change with
  | addSource | addFunction =>
    obtain rfl := Except.ok.inj commits
    rfl
  | remove id info =>
    simp only [Change.commit, SessionManager.removeBreakpointById] at commits
    cases there : m.bpResponses.lookup id with
    | none =>
      rw [there] at commits
      cases commits
    | some found =>
      rw [there] at commits
      simp only at commits
      split at commits
      · rename_i removed
        obtain rfl := Except.ok.inj commits
        split at removed
        · split at removed <;> cases removed <;> rfl
        · split at removed <;> cases removed <;> rfl
      · cases commits

private theorem field_reported (bp : Option BreakpointResult) (change : Change) :
    field "breakpoint_id" (change.response bp) = some (.int (reported bp change)) := by
  cases change <;> cases bp <;> rfl

/-- The entry that a change makes or deletes is the one it reports. -/
private theorem entries_kept {bp : Option BreakpointResult} (stands : change.Stands m)
    (commits : change.commit m = .ok m') (id : Int) (other : id ≠ reported bp change) :
    (change.record m' bp).breakpointInfo id = m.breakpointInfo id := by
  obtain ⟨m₁, commits₁, -, -, map, -⟩ := Change.commits stands
  obtain rfl := Except.ok.inj (commits₁.symm.trans commits)
  change (change.record m₁ bp).bpResponses.lookup id = m.bpResponses.lookup id
  cases change with
  | addSource file line condition =>
    cases bp with
    | none => exact congrArg (AList.lookup id) map
    | some bp => exact (AList.lookup_insert_ne other).trans (congrArg (AList.lookup id) map)
  | addFunction name condition =>
    cases bp with
    | none => exact congrArg (AList.lookup id) map
    | some bp => exact (AList.lookup_insert_ne other).trans (congrArg (AList.lookup id) map)
  | remove removed info =>
    have same : ((Change.remove removed info).record m₁ bp) = m₁ := by cases bp <;> rfl
    rw [same, map]
    exact AList.lookup_erase_ne other

private theorem record_rest (bp : Option BreakpointResult) : change.record m bp =
    { m with bpResponses := (change.record m bp).bpResponses } := by
  unfold Change.record
  split <;> rfl

/-- A commit and its entry change the active list of the target, and the reported entry. -/
private theorem record_commits {bp : Option BreakpointResult} (stands : change.Stands m)
    (commits : change.commit m = .ok m') :
    Commits m (change.record m' bp) (change.proposed m) (reported bp change) where
  list := by
    obtain ⟨m₁, commits₁, list, -⟩ := Change.commits stands
    obtain rfl := Except.ok.inj (commits₁.symm.trans commits)
    rw [current_record, proposed_target, list]
  files file other := by
    rw [proposed_target] at other
    have kept : (change.record m' bp).sourceBps = m'.sourceBps := by rw [record_rest]
    rw [kept]
    exact commit_files stands commits file other
  functions other := by
    rw [proposed_target] at other
    have kept : (change.record m' bp).functionBps = m'.functionBps := by rw [record_rest]
    rw [kept]
    exact commit_functions stands commits other
  entries := entries_kept stands commits
  rest := by
    rw [record_rest, commit_rest commits]

/-- An addition to an idle session changes the pending list of its target. -/
private theorem pend_pends (change : Change) : Pends m (change.pend m) change.target := by
  cases change with
  | addSource file line condition =>
    exact ⟨fun path other => AList.lookup_insert_ne fun same => other (congrArg Target.file
      same.symm), fun _ => rfl, rfl⟩
  | addFunction name condition => exact ⟨fun _ _ => rfl, fun other => absurd rfl other, rfl⟩
  | remove id info => exact ⟨fun _ _ => rfl, fun _ => rfl, rfl⟩

/-- The target of the change that a call's arguments ask for. -/
private theorem change_target {handler : BpHandler} {args : Args}
    (asks : (handler.tool args).change m = .ok change) :
    handler.target args m = some change.target := by
  cases handler with
  | setBreakpoint =>
    simp only [BpHandler.tool] at asks
    simp only [BpHandler.target]
    cases file : args.requireString "file" with
    | error e =>
      rw [file] at asks
      cases asks
    | ok file' =>
      rw [file] at asks
      cases line : args.requirePositiveInt "line" with
      | error e =>
        rw [line] at asks
        cases asks
      | ok line' =>
        rw [line] at asks
        obtain rfl := Except.ok.inj asks
        rfl
  | setFunctionBreakpoint =>
    simp only [BpHandler.tool] at asks
    cases name : args.requireString "name" with
    | error e =>
      rw [name] at asks
      cases asks
    | ok name' =>
      rw [name] at asks
      obtain rfl := Except.ok.inj asks
      rfl
  | removeBreakpoint =>
    simp only [BpHandler.tool] at asks
    simp only [BpHandler.target]
    cases id : args.requireInt "breakpoint_id" with
    | error e =>
      rw [id] at asks
      cases asks
    | ok id' =>
      rw [id] at asks
      simp only [BpTool.change] at asks
      cases info : m.breakpointInfo id' with
      | none =>
        rw [info] at asks
        cases asks
      | some info' =>
        rw [info] at asks
        obtain rfl := Except.ok.inj asks
        simp only [Except.toOption, Option.bind_some, info, Option.map_some, Change.target]

/-- The change that a call asks for names an entry that is there. -/
private theorem change_stands (typed : Typed m) (asks : tool.change m = .ok change) :
    change.Stands m := by
  cases tool with
  | setBreakpoint file line condition =>
    cases file <;> cases line <;> cases asks
    trivial
  | setFunctionBreakpoint name condition =>
    cases name <;> cases asks
    trivial
  | removeBreakpoint id =>
    cases id with
    | error e => cases asks
    | ok id =>
      simp only [BpTool.change] at asks
      cases here : m.breakpointInfo id with
      | none =>
        rw [here] at asks
        cases asks
      | some info =>
        rw [here] at asks
        obtain rfl := Except.ok.inj asks
        exact ⟨here, typed id info here⟩

/-- A call that is answered, and can commit. -/
theorem handle_committed {answer : BpRequest → Answer} {results : List BreakpointResult}
    {bp : Option BreakpointResult} (stopped : m.state = .stopped)
    (asks : tool.change m = .ok change)
    (answered : answer (change.proposed m) = .ok results) (result : change.result results = .ok bp)
    (commits : change.commit m = .ok m') :
    tool.handle m (some answer) =
      ⟨change.response bp, change.record m' bp, some (change.proposed m)⟩ := by
  have guard : m.checkState tool.allowed = .ok () := by
    rw [SessionManager.checkState_ok, stopped]
    cases tool <;> simp [BpTool.allowed]
  have active : m.state ≠ .idle := by
    rw [stopped]
    decide
  simp only [BpTool.handle, guard, asks, if_neg active, answered, result, commits]

/-- The inversion of `handle`: how a call can end, with what it returns. -/
inductive Ended (m : SessionManager) (tool : BpTool) (backend : Option (BpRequest → Answer)) :
    Handled → Prop where
  | failed (e : String) (sent : Option BpRequest) : Ended m tool backend ⟨.error e, m, sent⟩
  | pended {change : Change} (idle : m.state = .idle) (asks : tool.change m = .ok change)
      (adds : ∀ id info, change ≠ .remove id info) :
      Ended m tool backend ⟨change.pendingResponse, change.pend m, none⟩
  | committed {change : Change} {bp : Option BreakpointResult} {m' : SessionManager}
      (stopped : m.state = .stopped) (asks : tool.change m = .ok change)
      (commits : change.commit m = .ok m') :
      Ended m tool backend
        ⟨change.response bp, change.record m' bp, some (change.proposed m)⟩

theorem ended (tool : BpTool) (m : SessionManager) (backend : Option (BpRequest → Answer)) :
    Ended m tool backend (tool.handle m backend) := by
  unfold BpTool.handle
  cases guard : m.checkState tool.allowed with
  | error e => exact .failed e none
  | ok _ =>
    cases asks : tool.change m with
    | error e => exact .failed e none
    | ok change =>
      by_cases idle : m.state = .idle
      · simp only [if_pos idle]
        refine .pended idle asks fun id info removes => ?_
        subst removes
        exact not_idle_of_remove guard asks idle
      · have stopped := stopped_of_allowed guard idle
        simp only [if_neg idle]
        cases backend with
        | none => exact .failed _ none
        | some answer =>
          cases answered : answer (change.proposed m) with
          | error e =>
            simp only [answered]
            exact .failed _ _
          | ok results =>
            simp only [answered]
            cases result : change.result results with
            | error e => exact .failed e _
            | ok bp =>
              simp only
              cases commits : change.commit m with
              | error e => exact .failed e _
              | ok m' => exact .committed stopped asks commits

/-- A call that runs alone and returns an error has left the session as it was; one that returns
an object has changed the pending list of its target in an idle session, and else the active list
of its target, to the list that was sent, with the entry of the id that it reports. -/
theorem transactional (handler : BpHandler) (args : Args) (m : SessionManager)
    (backend : Option (BpRequest → Answer)) (typed : Typed m) :
    match handler.call args m backend with
    | ⟨.error _, m', _⟩ => m' = m
    | ⟨.json v, m', none⟩ => m.state = .idle ∧
      field "status" (.json v) = some (.string "pending") ∧
      ∃ target, handler.target args m = some target ∧ Pends m m' target
    | ⟨.json v, m', some request⟩ => m.state = .stopped ∧
      handler.target args m = some request.target ∧
      ∃ id, field "breakpoint_id" (.json v) = some (.int id) ∧ Commits m m' request id
    | ⟨.text _, _, _⟩ => False := by
  have cases_ := ended (handler.tool args) m backend
  unfold BpHandler.call
  generalize BpTool.handle (handler.tool args) m backend = handled at cases_ ⊢
  cases cases_ with
  | failed e sent => rfl
  | @pended change idle asks adds =>
    have pends : ∃ target, handler.target args m = some target ∧
        Pends m (change.pend m) target :=
      ⟨change.target, change_target asks, pend_pends change⟩
    cases change with
    | addSource | addFunction => exact ⟨idle, rfl, pends⟩
    | remove id info => exact absurd rfl (adds id info)
  | @committed change bp m' stopped asks commits =>
    have about : handler.target args m = some (change.proposed m).target := by
      rw [proposed_target, change_target asks]
    have changes := @record_commits m m' change bp (change_stands typed asks) commits
    have reports := field_reported bp change
    cases change with
    | addSource | addFunction | remove => exact ⟨stopped, about, _, reports, changes⟩

/-- A stopped session in which nothing is tracked. -/
def stoppedSession : SessionManager := { SessionManager.new with state := .stopped }

/-- A stopped session with a breakpoint on a function and two on lines. -/
def trackedSession : SessionManager :=
  { SessionManager.new with
    state := .stopped
    sourceBps := AList.singleton "a.c" [⟨3, ""⟩, ⟨8, ""⟩]
    functionBps := [⟨"main", ""⟩]
    bpResponses := (AList.singleton 1 ⟨1, "function", "", 0, "main", "", true⟩).insert 2
      ⟨2, "source", "a.c", 3, "", "", true⟩ }

private theorem typed_tracked : Typed trackedSession := by
  intro id info here
  by_cases line : id = 2
  · subst line
    obtain rfl := Option.some.inj ((AList.lookup_insert _).symm.trans here)
    exact .inl rfl
  · have here' := (AList.lookup_insert_ne line).symm.trans here
    by_cases function : id = 1
    · subst function
      cases here'
      exact .inr rfl
    · rw [AList.lookup_eq_none.mpr (by simpa [AList.mem_keys] using function)] at here'
      cases here'

/-- Another function breakpoint is set, and the first on a line is removed. -/
theorem transactional_tracked :
    (∃ id, Commits trackedSession
      (BpHandler.setFunctionBreakpoint.call ⟨AList.singleton "name" (.string "run")⟩ trackedSession
        (some fun _ => .ok [⟨1, true, 0, ""⟩, ⟨5, true, 0, ""⟩])).session
      (.setFunctionBreakpoints [⟨"main", ""⟩, ⟨"run", ""⟩]) id) ∧
    ∃ id, Commits trackedSession
      (BpHandler.removeBreakpoint.call ⟨AList.singleton "breakpoint_id" (.number 2)⟩ trackedSession
        (some fun _ => .ok [⟨3, true, 8, ""⟩])).session
      (.setBreakpoints "a.c" [⟨8, ""⟩]) id := by
  constructor
  · have ends := transactional .setFunctionBreakpoint ⟨AList.singleton "name" (.string "run")⟩
      trackedSession (some fun _ => .ok [⟨1, true, 0, ""⟩, ⟨5, true, 0, ""⟩]) typed_tracked
    obtain ⟨-, -, id, -, commits⟩ := ends
    exact ⟨id, commits⟩
  · have ends := transactional .removeBreakpoint ⟨AList.singleton "breakpoint_id" (.number 2)⟩
      trackedSession (some fun _ => .ok [⟨3, true, 8, ""⟩]) typed_tracked
    obtain ⟨-, -, id, -, commits⟩ := ends
    exact ⟨id, commits⟩

/-! What `set_breakpoint` reports. -/

/-- The call reports and records the breakpoint it has created, and no entry that was there is
lost. -/
structure ReportsNew (m : SessionManager) (file condition : String) (new : BreakpointResult)
    (handled : Handled) : Prop where
  id : field "breakpoint_id" handled.outcome = some (.int new.id)
  verified : field "verified" handled.outcome = some (.bool new.verified)
  line : field "line" handled.outcome = some (.int new.line)
  recorded : handled.session.breakpointInfo new.id =
    some ⟨new.id, "source", file, new.line, "", condition, new.verified⟩
  kept : ∀ id info, m.breakpointInfo id = some info → handled.session.breakpointInfo id = some info

private theorem matchedResult_mem {line : Int} {earlier : List BreakpointResult}
    {new : BreakpointResult} {bp : BreakpointResult} (here : bp ∈ earlier) (on : bp.line = line) :
    ∃ bp ∈ earlier, matchedResult line (earlier ++ [new]) = some bp := by
  have some_ : (earlier.find? fun bp => bp.line = line).isSome := by
    rw [List.find?_isSome]
    exact ⟨bp, here, decide_eq_true on⟩
  obtain ⟨found, is⟩ := Option.isSome_iff_exists.mp some_
  refine ⟨found, List.mem_of_find?_eq_some is, ?_⟩
  rw [matchedResult, List.find?_append, is]
  rfl

private theorem matchedResult_new {line : Int} {earlier : List BreakpointResult}
    {new : BreakpointResult} (off : ∀ bp ∈ earlier, bp.line ≠ line) :
    matchedResult line (earlier ++ [new]) = some new := by
  have none_ : (earlier.find? fun bp => bp.line = line) = none := by
    rw [List.find?_eq_none]
    intro bp here on
    exact off bp here (of_decide_eq_true on)
  rw [matchedResult, List.find?_append, none_, List.getLast?_concat, Option.none_or]
  by_cases on : new.line = line
  · simp only [List.find?_singleton, decide_eq_true on, if_true, Option.some_or]
  · simp [on]

/-- With an answer whose last entry is for the new breakpoint, under an id of its own, the call
reports that breakpoint exactly when no other entry lies on the requested line. -/
theorem reports_new_iff (m : SessionManager) (file : String) (line : Int) (condition : String)
    (answer : BpRequest → Answer) (earlier : List BreakpointResult) (new : BreakpointResult)
    (stopped : m.state = .stopped)
    (answered : answer ((Change.addSource file line condition).proposed m) =
      .ok (earlier ++ [new]))
    (distinct : ∀ bp ∈ earlier, bp.id ≠ new.id) (fresh : m.breakpointInfo new.id = none) :
    ReportsNew m file condition new
        (handleSetBreakpoint m (some answer) (.ok file) (.ok line) condition) ↔
      ∀ bp ∈ earlier, bp.line ≠ line := by
  have handled : ∀ bp, matchedResult line (earlier ++ [new]) = some bp →
      handleSetBreakpoint m (some answer) (.ok file) (.ok line) condition =
        ⟨(Change.addSource file line condition).response (some bp),
          (Change.addSource file line condition).record (m.addSourceBreakpoint file line condition)
            (some bp), some ((Change.addSource file line condition).proposed m)⟩ := by
    intro bp matched
    exact handle_committed stopped rfl answered (by rw [Change.result, matched]) rfl
  constructor
  · intro reports bp here on
    obtain ⟨found, there, matched⟩ := @matchedResult_mem line earlier new bp here on
    have id := reports.id
    rw [handled found matched] at id
    exact distinct found there (Value.int.inj (Option.some.inj id))
  · intro off
    rw [handled new (matchedResult_new off)]
    refine ⟨rfl, rfl, rfl, AList.lookup_insert _, fun id info here => ?_⟩
    have other : id ≠ new.id := by
      rintro rfl
      rw [fresh] at here
      cases here
    exact (AList.lookup_insert_ne other).trans here

/-- One breakpoint was set on line 10, and bound to line 12. -/
def relocated : SessionManager :=
  (handleSetBreakpoint stoppedSession (some fun _ => .ok [⟨1, true, 12, ""⟩]) (.ok "/f.c")
    (.ok 10) "x").session

/-- A breakpoint on line 12 is then reported under the id of the first, whose entry it takes. -/
theorem relocated_taken_for_new :
    relocated.state = .stopped ∧
    (Change.addSource "/f.c" 12 "").proposed relocated =
      .setBreakpoints "/f.c" [⟨10, "x"⟩, ⟨12, ""⟩] ∧
    relocated.breakpointInfo 2 = none ∧
    relocated.breakpointInfo 1 = some ⟨1, "source", "/f.c", 12, "", "x", true⟩ ∧
    let handled := handleSetBreakpoint relocated
      (some fun _ => .ok [⟨1, true, 12, ""⟩, ⟨2, true, 12, ""⟩]) (.ok "/f.c") (.ok 12) ""
    field "breakpoint_id" handled.outcome = some (.int 1) ∧
    handled.session.breakpointInfo 1 = some ⟨1, "source", "/f.c", 12, "", "", true⟩ ∧
    ¬ ReportsNew relocated "/f.c" "" ⟨2, true, 12, ""⟩ handled := by
  refine ⟨rfl, rfl, rfl, rfl, rfl, rfl, fun reports => ?_⟩
  have kept : some (BreakpointInfo.mk 1 "source" "/f.c" 12 "" "" true) =
      some ⟨1, "source", "/f.c", 12, "", "x", true⟩ := reports.kept 1 _ rfl
  exact absurd kept (by decide)

theorem reports_new_fifteen : ReportsNew relocated "/f.c" "" ⟨2, true, 15, ""⟩
    (handleSetBreakpoint relocated (some fun _ => .ok [⟨1, true, 12, ""⟩, ⟨2, true, 15, ""⟩])
      (.ok "/f.c") (.ok 14) "") :=
  (reports_new_iff relocated "/f.c" 14 "" (fun _ => .ok [⟨1, true, 12, ""⟩, ⟨2, true, 15, ""⟩])
    [⟨1, true, 12, ""⟩] ⟨2, true, 15, ""⟩ rfl rfl (by simp) rfl).mpr (by simp)

end

/-! What a removal undoes. -/

/-- To append an element and to drop the first that satisfies `p` is to do nothing exactly when
the element satisfies it, and no other element stands behind the first that does. -/
private theorem eraseP_concat_eq_iff {α : Type} (p : α → Bool) (a : α) (l : List α) :
    (l ++ [a]).eraseP p = l ↔ p a = true ∧ ∀ b ∈ l.dropWhile fun b => !p b, b = a := by
  induction l with
  | nil => cases h : p a <;> simp [h]
  | cons x l ih =>
    by_cases first : p x = true
    · rw [List.cons_append, List.eraseP_cons_of_pos first,
        List.dropWhile_cons_of_neg (by simpa using first)]
      have rotate : ∀ (l : List α) (x : α), l ++ [a] = x :: l ↔ ∀ b ∈ x :: l, b = a := by
        intro l
        induction l with
        | nil => simp [eq_comm]
        | cons y l ih =>
          intro x
          rw [List.cons_append, List.cons_eq_cons, ih y]
          constructor
          · rintro ⟨rfl, all⟩
            exact List.forall_mem_cons.mpr ⟨all y (List.mem_cons_self ..), all⟩
          · intro all
            obtain ⟨head, rest⟩ := List.forall_mem_cons.mp all
            exact ⟨(rest y (List.mem_cons_self ..)).trans head.symm, rest⟩
      rw [rotate]
      refine ⟨fun all => ⟨?_, all⟩, And.right⟩
      rw [← all x (List.mem_cons_self ..)]
      exact first
    · rw [List.cons_append, List.eraseP_cons_of_neg first, List.cons_eq_cons,
        List.dropWhile_cons_of_pos (by simpa using first), ih]
      exact ⟨And.right, fun both => ⟨rfl, both⟩⟩

/-- The calls that set a breakpoint. -/
inductive Addition where
  | source (file : String) (line : Int) (condition : String)
  | function (name condition : String)
  deriving DecidableEq, Repr

namespace Addition

def change : Addition → Change
  | .source file line condition => .addSource file line condition
  | .function name condition => .addFunction name condition

/-- The call, made in a session with a backend. -/
def set (addition : Addition) (m : SessionManager) (answer : BpRequest → Answer) : Handled :=
  match addition with
  | .source file line condition =>
    handleSetBreakpoint m (some answer) (.ok file) (.ok line) condition
  | .function name condition => handleSetFunctionBreakpoint m (some answer) (.ok name) condition

/-- A source breakpoint has an entry of the answer on the line that it was requested on. -/
def Placed (results : List BreakpointResult) : Addition → Prop
  | .source _ line _ => ∃ bp ∈ results, bp.line = line
  | .function .. => True

/-- The list with the new breakpoint at its end, less the first one on that line or name. -/
def undone (m : SessionManager) : Addition → BpRequest
  | .source file line condition =>
    .setBreakpoints file
      ((m.sourceBreakpointsForFile file ++ [SourceBp.mk line condition]).eraseP fun bp =>
        bp.line = line)
  | .function name condition =>
    .setFunctionBreakpoints
      ((m.functionBps ++ [FunctionBp.mk name condition]).eraseP fun bp => bp.name = name)

/-- The breakpoints that are tracked, from the first on the line or name of the new one on, are
all the same as that. -/
def Repeats (m : SessionManager) : Addition → Prop
  | .source file line condition =>
    ∀ bp ∈ (m.sourceBreakpointsForFile file).dropWhile (fun bp => !decide (bp.line = line)),
      bp = ⟨line, condition⟩
  | .function name condition =>
    ∀ bp ∈ m.functionBps.dropWhile (fun bp => !decide (bp.name = name)), bp = ⟨name, condition⟩

/-- The set and the removal cancel out exactly when they meet the same breakpoint. -/
theorem undone_eq_iff (addition : Addition) (m : SessionManager) :
    addition.undone m = current m addition.change.target ↔ addition.Repeats m := by
  cases addition with
  | source file line condition =>
    simp only [undone, current, change, Change.target, BpRequest.setBreakpoints.injEq, true_and]
    rw [eraseP_concat_eq_iff]
    exact ⟨And.right, fun all => ⟨decide_eq_true rfl, all⟩⟩
  | function name condition =>
    simp only [undone, current, change, Change.target, BpRequest.setFunctionBreakpoints.injEq]
    rw [eraseP_concat_eq_iff]
    exact ⟨And.right, fun all => ⟨decide_eq_true rfl, all⟩⟩

end Addition

section

variable {m : SessionManager} {addition : Addition}

/-- A set that has been answered: the list it leaves, and the entry under the id it reports. -/
private theorem set_leaves {answer : BpRequest → Answer} {results : List BreakpointResult}
    {id : Int} (stopped : m.state = .stopped)
    (answered : answer (addition.change.proposed m) = .ok results) (some_ : results ≠ [])
    (placed : addition.Placed results)
    (reports : field "breakpoint_id" (addition.set m answer).outcome = some (.int id)) :
    (addition.set m answer).session.state = .stopped ∧
    (∀ target, target ≠ addition.change.target →
      current (addition.set m answer).session target = current m target) ∧
    ∃ info, (addition.set m answer).session.breakpointInfo id = some info ∧
      (info.ty = "source" ∨ info.ty = "function") ∧
      (Change.remove id info).target = addition.change.target ∧
      (Change.remove id info).proposed (addition.set m answer).session = addition.undone m := by
  cases addition with
  | source file line condition =>
    obtain ⟨bp, here, on⟩ := placed
    have found : (results.find? fun bp => bp.line = line).isSome := by
      rw [List.find?_isSome]
      exact ⟨bp, here, decide_eq_true on⟩
    obtain ⟨matched, is⟩ := Option.isSome_iff_exists.mp found
    have line_ : matched.line = line := by simpa using List.find?_some is
    have handled : (Addition.source file line condition).set m answer =
        ⟨(Change.addSource file line condition).response (some matched),
          (Change.addSource file line condition).record (m.addSourceBreakpoint file line condition)
            (some matched), some ((Change.addSource file line condition).proposed m)⟩ := by
      refine handle_committed stopped rfl answered ?_ rfl
      rw [Change.result, matchedResult, is]
      rfl
    rw [handled] at reports ⊢
    obtain rfl : matched.id = id := Value.int.inj (Option.some.inj reports)
    obtain ⟨m', commits, list, others, -, -⟩ :=
      @Change.commits m (.addSource file line condition) trivial
    obtain rfl := Except.ok.inj commits
    refine ⟨stopped, others, _, AList.lookup_insert _, .inl rfl, rfl, ?_⟩
    have tracked : ((Change.addSource file line condition).record
        (m.addSourceBreakpoint file line condition) (some matched)).sourceBreakpointsForFile file =
        m.sourceBreakpointsForFile file ++ [⟨line, condition⟩] :=
      (BpRequest.setBreakpoints.inj list).2
    change BpRequest.setBreakpoints file (List.eraseP _ _) = _
    rw [tracked, line_]
    rfl
  | function name condition =>
    have new : results.getLast? = some (results.getLast some_) :=
      List.getLast?_eq_some_getLast some_
    have handled : (Addition.function name condition).set m answer =
        ⟨(Change.addFunction name condition).response (some (results.getLast some_)),
          (Change.addFunction name condition).record (m.addFunctionBreakpoint name condition)
            (some (results.getLast some_)),
          some ((Change.addFunction name condition).proposed m)⟩ := by
      refine handle_committed stopped rfl answered ?_ rfl
      rw [Change.result, new]
    rw [handled] at reports ⊢
    obtain rfl : (results.getLast some_).id = id := Value.int.inj (Option.some.inj reports)
    obtain ⟨m', commits, -, others, -, -⟩ :=
      @Change.commits m (.addFunction name condition) trivial
    obtain rfl := Except.ok.inj commits
    exact ⟨stopped, others, _, AList.lookup_insert _, .inr rfl, rfl, rfl⟩

/-- A breakpoint is set, and the id that the call reports is removed. The list that the removal
sends, and that is tracked then, is the one from before the set with the new breakpoint at its end,
less the first on its line or name; it is the one from before the set exactly when the breakpoints
from the first on that line or name on are all the same as the new one. -/
theorem removal_after_set (addition : Addition) (m : SessionManager)
    (answer answer' : BpRequest → Answer) (results : List BreakpointResult) (id : Int)
    (stopped : m.state = .stopped) (answered : answer (addition.change.proposed m) = .ok results)
    (positional : results.length = (addition.change.proposed m).size)
    (placed : addition.Placed results)
    (reports : field "breakpoint_id" (addition.set m answer).outcome = some (.int id))
    (removes : ∀ e, (handleRemoveBreakpoint (addition.set m answer).session (some answer')
      (.ok id)).outcome ≠ .error e) :
    let removed := handleRemoveBreakpoint (addition.set m answer).session (some answer') (.ok id)
    removed.sent = some (addition.undone m) ∧
    current removed.session addition.change.target = addition.undone m ∧
    (∀ target, target ≠ addition.change.target →
      current removed.session target = current m target) ∧
    (addition.undone m = current m addition.change.target ↔ addition.Repeats m) := by
  have some_ : results ≠ [] := by
    rintro rfl
    cases addition with
    | source file line condition =>
      simp [Addition.change, Change.proposed, BpRequest.size] at positional
    | function name condition =>
      simp [Addition.change, Change.proposed, BpRequest.size] at positional
  obtain ⟨stopped', others, info, here, typed, target, proposed⟩ :=
    set_leaves stopped answered some_ placed reports
  intro removed
  have cases_ := ended (.removeBreakpoint (.ok id)) (addition.set m answer).session (some answer')
  change Ended _ _ _ removed at cases_
  change ∀ e, removed.outcome ≠ .error e at removes
  clear_value removed
  refine and_assoc.mp (and_assoc.mp ⟨?_, addition.undone_eq_iff m⟩)
  cases cases_ with
  | failed e sent => exact absurd rfl (removes e)
  | pended idle =>
    rw [stopped'] at idle
    cases idle
  | @committed change bp m' _ asks commits =>
    simp only [BpTool.change, here] at asks
    obtain rfl := Except.ok.inj asks
    obtain ⟨m₁, commits₁, list, others', -, -⟩ :=
      @Change.commits (addition.set m answer).session (.remove id info) ⟨here, typed⟩
    obtain rfl := Except.ok.inj (commits₁.symm.trans commits)
    rw [target, proposed] at list
    rw [target] at others'
    refine ⟨⟨congrArg some proposed, (current_record bp _).trans list⟩, fun target' other => ?_⟩
    rw [current_record, others' target' other, others target' other]

/-- A breakpoint was set on a function, with a condition. -/
def conditional : SessionManager :=
  ((Addition.function "f" "a").set stoppedSession fun _ => .ok [⟨1, true, 0, ""⟩]).session

/-- A breakpoint of another condition is set on that function and removed, and the earlier one is
gone; one that was bound to another line than it was requested on stays where it is. -/
theorem removal_meets_other :
    let set := (Addition.function "f" "b").set conditional
      fun _ => .ok [⟨1, true, 0, ""⟩, ⟨2, true, 0, ""⟩]
    let removed := handleRemoveBreakpoint set.session (some fun _ => .ok [⟨2, true, 0, ""⟩]) (.ok 2)
    let stays := handleRemoveBreakpoint relocated (some fun _ => .ok [⟨1, true, 12, ""⟩]) (.ok 1)
    (current conditional .functions = .setFunctionBreakpoints [⟨"f", "a"⟩] ∧
      field "breakpoint_id" set.outcome = some (.int 2) ∧
      field "removed" removed.outcome = some (.bool true) ∧
      removed.sent = some (.setFunctionBreakpoints [⟨"f", "b"⟩]) ∧
      current removed.session .functions = .setFunctionBreakpoints [⟨"f", "b"⟩]) ∧
    current stoppedSession (.file "/f.c") = .setBreakpoints "/f.c" [] ∧
      field "removed" stays.outcome = some (.bool true) ∧
      stays.sent = some (.setBreakpoints "/f.c" [⟨10, "x"⟩]) ∧
      current stays.session (.file "/f.c") = .setBreakpoints "/f.c" [⟨10, "x"⟩] :=
  ⟨⟨rfl, rfl, rfl, rfl, rfl⟩, rfl, rfl, rfl, rfl⟩

theorem removal_after_set_twelve :
    let set := (Addition.source "/f.c" 12 "").set relocated
      fun _ => .ok [⟨1, true, 13, ""⟩, ⟨2, true, 12, ""⟩]
    (handleRemoveBreakpoint set.session (some fun _ => .ok [⟨1, true, 13, ""⟩]) (.ok 2)).sent =
      some (.setBreakpoints "/f.c" [⟨10, "x"⟩]) :=
  (removal_after_set (.source "/f.c" 12 "") relocated
    (fun _ => .ok [⟨1, true, 13, ""⟩, ⟨2, true, 12, ""⟩]) (fun _ => .ok [⟨1, true, 13, ""⟩])
    [⟨1, true, 13, ""⟩, ⟨2, true, 12, ""⟩] 2 rfl rfl rfl ⟨⟨2, true, 12, ""⟩, by simp, rfl⟩ rfl
    (fun _ fails => by cases fails)).1

end

end LldbDebugMcp.Server.BreakpointCalls
