/- module: LldbDebugMcp/Server/LateCommits
   source: crates/mcp-tools/src/handlers/{breakpoints,inspection,lifecycle}.rs,
   crates/mcp-tools/src/frame.rs, crates/mcp-session/src/manager.rs
   digest: The calls that write the breakpoint and frame caches after an await, among resets, and
   when the caches hold only what calls since the last reset have written. -/

import LldbDebugMcp.Server.Breakpoints
import LldbDebugMcp.Server.InspectionSteps
import LldbDebugMcp.Server.Lldb

set_option autoImplicit false
set_option relaxedAutoImplicit false

namespace LldbDebugMcp.Server.LateCommits

open LldbDebugMcp.Core.Types
open LldbDebugMcp.Library.Transition
open LldbDebugMcp.Session.Manager
open LldbDebugMcp.Session.Operation
open LldbDebugMcp.Server.Contract
open LldbDebugMcp.Server.Breakpoints
open LldbDebugMcp.Server.Inspection (Inspector backtraceLevels frameMap)
open LldbDebugMcp.Server.InspectionSteps
open LldbDebugMcp.Server.Lifecycle
open LldbDebugMcp.Server.System
open LldbDebugMcp.Server.Steps
open LldbDebugMcp.Server.Lldb

/-- What a session holds of breakpoints and frames: the active list of each file, that of the
functions, the response map and the frame map. -/
@[ext] structure Caches where
  sources : String → List SourceBp
  functions : List FunctionBp
  responses : Int → Option BreakpointInfo
  frames : Int → Option Int

def caches (m : SessionManager) : Caches where
  sources := m.sourceBreakpointsForFile
  functions := m.functionBps
  responses := m.breakpointInfo
  frames index := m.frameMapping.lookup index

namespace Caches

def empty : Caches := ⟨fun _ => [], [], fun _ => none, fun _ => none⟩

def push (c : Caches) (file : String) (more : List SourceBp) : Caches :=
  { c with sources := Function.update c.sources file (c.sources file ++ more) }

/-- The removal of a tracked id. -/
def remove (c : Caches) (id : Int) (info : BreakpointInfo) : Caches where
  sources :=
    if info.ty = "source" then
      Function.update c.sources info.file
        ((c.sources info.file).eraseP fun bp => bp.line = info.line)
    else c.sources
  functions :=
    if info.ty = "function" then c.functions.eraseP fun bp => bp.name = info.function
    else c.functions
  responses := Function.update c.responses id none
  frames := c.frames

def book (c : Caches) : Bookkeeping → Caches
  | .setFrameMapping mapping => { c with frames := fun index => mapping.lookup index }
  | .addSourceBreakpoint file line condition => c.push file [⟨line, condition⟩]
  | .addFunctionBreakpoint name condition =>
    { c with functions := c.functions ++ [⟨name, condition⟩] }
  | .addBreakpointResponse info =>
    { c with responses := Function.update c.responses info.id (some info) }
  | .removeBreakpointById id =>
    match c.responses id with
    | some info => c.remove id info
    | none => c
  | .addPendingSourceBreakpoint .. | .addPendingFunctionBreakpoint .. | .drainOutput => c

/-- The pending breakpoints of the session become active. -/
def flush (c : Caches) (m : SessionManager) : Caches :=
  let c' := m.pendingSourceBps.entries.foldl (fun c e => c.push e.1 e.2) c
  { c' with functions := c'.functions ++ m.pendingFunctionBps }

/-- What a session write does to the caches, by themselves. -/
def apply (c : Caches) (m : SessionManager) : SessionOp → Caches
  | .resetInner => empty
  | .flushPendingBreakpoints => c.flush m
  | .bookkeeping op => c.book op
  | _ => c

end Caches

section

variable {m : SessionManager}

private theorem sources_insert (bps : AList fun _ : String => List SourceBp) (file : String)
    (list : List SourceBp) :
    (fun path => ((bps.insert file list).lookup path).getD []) =
      Function.update (fun path => (bps.lookup path).getD []) file list := by
  funext path
  by_cases same : path = file
  · subst same
    rw [AList.lookup_insert, Function.update_self, Option.getD_some]
  · rw [AList.lookup_insert_ne same, Function.update_of_ne same]

private theorem responses_insert (map : AList fun _ : Int => BreakpointInfo) (id : Int)
    (info : BreakpointInfo) :
    (fun i => (map.insert id info).lookup i) =
      Function.update (fun i => map.lookup i) id (some info) := by
  funext i
  by_cases same : i = id
  · subst same
    rw [AList.lookup_insert, Function.update_self]
  · rw [AList.lookup_insert_ne same, Function.update_of_ne same]

private theorem responses_erase (map : AList fun _ : Int => BreakpointInfo) (id : Int) :
    (fun i => (map.erase id).lookup i) = Function.update (fun i => map.lookup i) id none := by
  funext i
  by_cases same : i = id
  · subst same
    rw [AList.lookup_erase, Function.update_self]
  · rw [AList.lookup_erase_ne same, Function.update_of_ne same]

private theorem caches_remove (m : SessionManager) (id : Int) :
    caches (m.removeBreakpointById id).2 = (caches m).book (.removeBreakpointById id) := by
  unfold SessionManager.removeBreakpointById
  change _ = match m.bpResponses.lookup id with
    | some info => (caches m).remove id info
    | none => caches m
  cases m.bpResponses.lookup id with
  | none => rfl
  | some info =>
    simp only [Caches.remove]
    by_cases source : info.ty = "source"
    · have function : info.ty ≠ "function" := by
        rw [source]
        decide
      simp only [if_pos source, if_neg function]
      cases list : m.sourceBps.lookup info.file with
      | none =>
        ext1
        · refine (Function.update_eq_self_iff.mpr ?_).symm
          simp [caches, SessionManager.sourceBreakpointsForFile, list]
        · rfl
        · exact responses_erase m.bpResponses id
        · rfl
      | some bps =>
        ext1
        · have current : (caches m).sources info.file = bps := by
            simp [caches, SessionManager.sourceBreakpointsForFile, list]
          simp only [current]
          exact sources_insert m.sourceBps info.file _
        · rfl
        · exact responses_erase m.bpResponses id
        · rfl
    · simp only [if_neg source]
      split <;> ext1 <;> first | rfl | exact responses_erase m.bpResponses id

private theorem sources_foldl (entries : List (Sigma fun _ : String => List SourceBp))
    (bps : AList fun _ : String => List SourceBp) (c : Caches)
    (same : (fun path => (bps.lookup path).getD []) = c.sources) :
    (fun path => (((entries.map fun e => (e.1, e.2)).foldl
        (fun bps e => SessionManager.pushSource bps e.1 e.2) bps).lookup path).getD []) =
      (entries.foldl (fun c e => c.push e.1 e.2) c).sources := by
  induction entries generalizing bps c with
  | nil => exact same
  | cons e rest ih =>
    refine ih (SessionManager.pushSource bps e.1 e.2) (c.push e.1 e.2) ?_
    rw [SessionManager.pushSource, sources_insert, same, Caches.push, ← same]

private theorem foldl_push (entries : List (Sigma fun _ : String => List SourceBp)) (c : Caches) :
    let c' := entries.foldl (fun c e => c.push e.1 e.2) c
    c'.functions = c.functions ∧ c'.responses = c.responses ∧ c'.frames = c.frames := by
  induction entries generalizing c with
  | nil => exact ⟨rfl, rfl, rfl⟩
  | cons e rest ih => exact ih (c.push e.1 e.2)

private theorem caches_flush (m : SessionManager) :
    caches m.flushPendingBreakpoints.2 = (caches m).flush m := by
  obtain ⟨functions, responses, frames⟩ := foldl_push m.pendingSourceBps.entries (caches m)
  ext1
  · exact sources_foldl _ m.sourceBps (caches m) rfl
  · exact (congrArg (· ++ m.pendingFunctionBps) functions).symm
  · exact responses.symm
  · exact frames.symm

/-- A session write does to the caches of the session what it does to caches by themselves. -/
theorem caches_apply (m : SessionManager) (op : SessionOp) :
    caches (op.apply m) = (caches m).apply m op := by
  cases op with
  | setStateIfGeneration | terminateIfGeneration =>
    simp only [SessionOp.apply, SessionManager.setStateIfGeneration,
      SessionManager.terminateIfGeneration]
    split <;> rfl
  | flushPendingBreakpoints => exact caches_flush m
  | bookkeeping b =>
    cases b with
    | removeBreakpointById id => exact caches_remove m id
    | addSourceBreakpoint file line condition =>
      ext1
      · exact sources_insert m.sourceBps file _
      all_goals rfl
    | addBreakpointResponse info =>
      ext1
      · rfl
      · rfl
      · exact responses_insert m.bpResponses info.id info
      · rfl
    | _ => rfl
  | _ => rfl

end

/-- The six calls, with their arguments. -/
inductive CacheTool where
  | breakpoint (tool : BpTool)
  | inspect (tool : InspectTool)

inductive CachePc where
  | breakpoint (pc : BreakpointPc)
  | inspect (pc : InspectPc)

def CacheTool.entry : CacheTool → CachePc
  | .breakpoint tool => .breakpoint (.checkState tool)
  | .inspect tool => .inspect (.checkState tool)

/-- What has come back to a call that awaits the backend. -/
inductive Reply where
  | silent
  | breakpoints (answer : Answer)
  | inspector (backend : Inspector)

def Reply.answer : Reply → Option Answer
  | .breakpoints answer => some answer
  | .silent | .inspector _ => none

def Reply.backend : Reply → Option Inspector
  | .inspector backend => some backend
  | .silent | .breakpoints _ => none

namespace CachePc

/-- The session write of a point. -/
def operation : CachePc → Option SessionOp
  | .breakpoint pc => pc.operation.map .bookkeeping
  | .inspect pc => pc.operation.map .bookkeeping

def next (toLowercase : String → String) (m : SessionManager) (connected : Bool)
    (reply : Reply) : CachePc → Option CachePc
  | .breakpoint pc => (pc.next m connected reply.answer).map .breakpoint
  | .inspect pc => (pc.next toLowercase m connected reply.backend).map .inspect

end CachePc

/-- The server with these calls on it. Two history variables: the calls that a reset has
overtaken, and what the caches come to by the writes of the others, since the last reset. -/
structure Hosted (S : Seam) where
  server : ToolServer S
  calls : Nat → Option CachePc
  overtaken : Nat → Bool
  own : Caches

inductive Action (S : Seam) where
  | server (a : System.Action S)
  | call (t : Nat) (tool : CacheTool)
  | task (t : Nat) (reply : Reply)

/-- A step of the server that is not the write of one of these calls. -/
def isForeign {S : Seam} : System.Action S → Bool
  | .bookkeeping .drainOutput => true
  | .bookkeeping _ => false
  | _ => true

/-- What a step makes of caches by its session write. -/
def Caches.after (c : Caches) (m : SessionManager) : Option SessionOp → Caches
  | some op => c.apply m op
  | none => c

theorem caches_after (m : SessionManager) (op : Option SessionOp) :
    caches (applyOption m op) = (caches m).after m op := by
  cases op with
  | some op => exact caches_apply m op
  | none => rfl

section

variable {S : Seam}

namespace Hosted

def new : Hosted S := ⟨ToolServer.new, fun _ => none, fun _ => false, .empty⟩

/-- A step of the server. A reset overtakes the calls that there are. -/
def serve (s : Hosted S) (a : System.Action S) (server : ToolServer S) : Hosted S where
  server := server
  calls := s.calls
  overtaken t := if Resets s.server a then s.overtaken t || (s.calls t).isSome else s.overtaken t
  own := s.own.after s.server.session (stepOperation s.server a)

/-- A call goes on from a point to the next. -/
def goOn (s : Hosted S) (t : Nat) (pc pc' : CachePc) : Hosted S where
  server := { s.server with session := applyOption s.server.session pc.operation }
  calls := Function.update s.calls t (some pc')
  overtaken := s.overtaken
  own := if s.overtaken t then s.own else s.own.after s.server.session pc.operation

def step (toLowercase : String → String) (s : Hosted S) : Action S → Option (Hosted S)
  | .server a => if isForeign a then (s.server.step a).map (s.serve a) else none
  | .call t tool =>
    match s.calls t with
    | none => some { s with
      calls := Function.update s.calls t (some tool.entry)
      overtaken := Function.update s.overtaken t false }
    | some _ => none
  | .task t reply => (s.calls t).bind fun pc =>
    (pc.next toLowercase s.server.session s.server.backend.isSome reply).map (s.goOn t pc)

end Hosted

/-- The caches hold what calls that were issued since the last reset have written, and the
breakpoints that a launch has moved to the active lists since; nothing of an earlier session. -/
def Own (s : Hosted S) : Prop := caches s.server.session = s.own

/-- The point is a commit that changes the caches: it adds to an active list, removes an id that
is tracked, records what is not recorded so, or stores another frame map. -/
def Commits (m : SessionManager) : CachePc → Prop
  | .breakpoint (.commit (.addSource ..) _) | .breakpoint (.commit (.addFunction ..) _) => True
  | .breakpoint (.commit (.remove id _) _) => m.breakpointInfo id ≠ none
  | .breakpoint (.record change bp) =>
    ∃ info, bp.bind change.info = some info ∧ m.breakpointInfo info.id ≠ some info
  | .inspect (.storeFrames _ frames _) | .inspect (.storeResolved _ _ frames) =>
    ∃ index, (frameMap frames).lookup index ≠ m.frameMapping.lookup index
  | _ => False

/-- The call has its answer, and is about to write it to the caches. -/
def CachePc.answered : CachePc → Bool
  | .breakpoint (.commit (.remove ..) _) | .breakpoint (.record (.remove ..) _) => false
  | .breakpoint (.commit ..) => true
  | .breakpoint (.record _ bp) => bp.isSome
  | .inspect (.storeFrames ..) | .inspect (.storeResolved ..) => true
  | _ => false

/-- The answer to the request of a change leaves nothing to add: it is an error, or names no
breakpoint for a line. -/
def declined : Change → Answer → Bool
  | .remove .., _ | _, .error _ => true
  | .addSource .., .ok results => results.isEmpty
  | .addFunction .., .ok _ => false

/-- What comes back to a call that awaits the backend leaves it nothing to write. -/
def Declines : CachePc → Reply → Prop
  | .breakpoint (.awaiting change _), .breakpoints answer => declined change answer = true
  | .inspect (.backtracing args threadId), .inspector backend =>
    ∃ e, backend.stackTrace threadId 0 (backtraceLevels args) = .error e
  | .inspect (.resolving _ _ threadId), .inspector backend =>
    ∃ e, backend.stackTrace threadId 0 20 = .error e
  | _, _ => True

/-- A removal finds its id not tracked. -/
def Untracked (m : SessionManager) : CachePc → Prop
  | .breakpoint (.commit (.remove id _) _) => m.breakpointInfo id = none
  | _ => True

/-- A reset finds no call between its answer and the last write of it. A call that a reset has
overtaken is answered with nothing to write, and removes only what is not tracked. -/
def NoLateAnswer (s : Hosted S) : Action S → Prop
  | .server a => Resets s.server a → ∀ t pc, s.calls t = some pc → pc.answered = false
  | .task t reply => s.overtaken t = true → ∀ pc, s.calls t = some pc →
    Declines pc reply ∧ Untracked s.server.session pc
  | .call .. => True

/-- The step is not the commit of a call that a reset has overtaken. -/
def Inert (s : Hosted S) : Action S → Prop
  | .task t _ => s.overtaken t = true → ∀ pc, s.calls t = some pc → ¬ Commits s.server.session pc
  | .server _ | .call .. => True

/-- The step may write the caches: it is one of a call that was issued since the last reset, or
the step with which a launch moves the pending breakpoints to the active lists. -/
def Writes (s : Hosted S) : Action S → Prop
  | .task t _ => s.overtaken t = false
  | .server a => stepOperation s.server a = some .flushPendingBreakpoints
  | .call .. => False

variable {toLowercase : String → String} {s s' : Hosted S} {a : Action S} {as : List (Action S)}

private theorem push_ne (c : Caches) (file : String) (bp : SourceBp) : c.push file [bp] ≠ c := by
  intro same
  have list := congrFun (congrArg Caches.sources same) file
  simp [Caches.push] at list

private theorem addFunction_ne (c : Caches) (name condition : String) :
    c.book (.addFunctionBreakpoint name condition) ≠ c := by
  intro same
  have list := congrArg Caches.functions same
  simp [Caches.book] at list

private theorem remove_eq_iff (m : SessionManager) (id : Int) :
    (caches m).book (.removeBreakpointById id) = caches m ↔ m.breakpointInfo id = none := by
  change (match m.breakpointInfo id with
    | some info => (caches m).remove id info
    | none => caches m) = caches m ↔ _
  cases tracked : m.breakpointInfo id with
  | none => exact iff_of_true rfl rfl
  | some info =>
    refine iff_of_false (fun same => ?_) (fun h => by cases h)
    have gone := congrFun (congrArg Caches.responses same) id
    simp only [Caches.remove, Function.update_self] at gone
    cases gone.trans tracked

private theorem record_eq_iff (m : SessionManager) (info : BreakpointInfo) :
    (caches m).book (.addBreakpointResponse info) = caches m ↔
      m.breakpointInfo info.id = some info := by
  constructor
  · intro same
    have entry := congrFun (congrArg Caches.responses same) info.id
    simp only [Caches.book, Function.update_self] at entry
    exact entry.symm
  · intro there
    ext1
    · rfl
    · rfl
    · exact Function.update_eq_self_iff.mpr there.symm
    · rfl

private theorem mapping_eq_iff (m : SessionManager) (mapping : AList fun _ : Int => Int) :
    (caches m).book (.setFrameMapping mapping) = caches m ↔
      ∀ index, mapping.lookup index = m.frameMapping.lookup index := by
  constructor
  · intro same index
    exact congrFun (congrArg Caches.frames same) index
  · intro same
    ext1
    · rfl
    · rfl
    · rfl
    · exact funext same

/-- The commits are the writes that change the caches. -/
private theorem commits_iff (m : SessionManager) (pc : CachePc) :
    (caches m).after m pc.operation = caches m ↔ ¬ Commits m pc := by
  cases pc with
  | breakpoint pc =>
    cases pc with
    | pend change => cases change <;> exact iff_of_true rfl id
    | commit change bp =>
      cases change with
      | addSource file line condition =>
        exact iff_of_false (push_ne (caches m) file ⟨line, condition⟩) (fun h => h trivial)
      | addFunction name condition =>
        exact iff_of_false (addFunction_ne (caches m) name condition) (fun h => h trivial)
      | remove id info => exact (remove_eq_iff m id).trans not_not.symm
    | record change bp =>
      simp only [CachePc.operation, BreakpointPc.operation, Commits]
      cases made : bp.bind change.info with
      | none => exact iff_of_true rfl (by simp)
      | some info =>
        simp only [Option.some.injEq, exists_eq_left', ne_eq, not_not]
        exact record_eq_iff m info
    | _ => exact iff_of_true rfl id
  | inspect pc =>
    cases pc with
    | storeFrames _ frames | storeResolved _ _ frames =>
      simp only [Commits, not_exists, not_not]
      exact mapping_eq_iff m (frameMap frames)
    | _ => exact iff_of_true rfl id

private theorem serve_eq {b : System.Action S}
    (taken : s.step toLowercase (.server b) = some s') :
    isForeign b = true ∧ ∃ server, s.server.step b = some server ∧ s' = s.serve b server := by
  simp only [Hosted.step] at taken
  split at taken
  · rename_i foreign
    obtain ⟨server, moved, rfl⟩ := Option.map_eq_some_iff.mp taken
    exact ⟨foreign, server, moved, rfl⟩
  · cases taken

private theorem call_eq {t : Nat} {tool : CacheTool}
    (taken : s.step toLowercase (.call t tool) = some s') :
    s'.server = s.server ∧ s'.own = s.own := by
  simp only [Hosted.step] at taken
  split at taken
  · obtain rfl := Option.some.inj taken
    exact ⟨rfl, rfl⟩
  · cases taken

private theorem goOn_eq {t : Nat} {reply : Reply}
    (taken : s.step toLowercase (.task t reply) = some s') :
    ∃ pc pc', s.calls t = some pc ∧ s' = s.goOn t pc pc' := by
  obtain ⟨pc, here, rest⟩ := Option.bind_eq_some_iff.mp taken
  obtain ⟨pc', -, rfl⟩ := Option.map_eq_some_iff.mp rest
  exact ⟨pc, pc', here, rfl⟩

private theorem own_step (own : Own s) (taken : s.step toLowercase a = some s') :
    Own s' ↔ Inert s a := by
  have mine : caches s.server.session = s.own := own
  cases a with
  | server b =>
    obtain ⟨-, server, moved, rfl⟩ := serve_eq taken
    refine iff_of_true ?_ trivial
    simp only [Own, Hosted.serve, step_session moved, caches_after, mine]
  | call t tool =>
    obtain ⟨server, same⟩ := call_eq taken
    refine iff_of_true ?_ trivial
    rw [Own, server, same]
    exact own
  | task t reply =>
    obtain ⟨pc, pc', here, rfl⟩ := goOn_eq taken
    simp only [Own, Inert, Hosted.goOn, caches_after]
    cases late : s.overtaken t with
    | false =>
      refine iff_of_true ?_ (fun h => by cases h)
      simp only [Bool.false_eq_true, if_false, mine]
    | true =>
      simp only [if_true, true_implies]
      rw [← mine, commits_iff]
      constructor
      · intro inert pc₀ here'
        obtain rfl := Option.some.inj (here.symm.trans here')
        exact inert
      · exact fun inert => inert pc here

/-- The caches hold only what was written by calls since the last reset, in every state of a run,
exactly when no call that a reset has overtaken changes them. -/
private theorem own_iff (run : Run (Hosted.step toLowercase) anyStep Hosted.new as s) :
    Throughout (Hosted.step toLowercase) Own Hosted.new as s ↔
      Run (Hosted.step toLowercase) Inert Hosted.new as s :=
  run.throughout_iff (J := fun _ => True) (fun _ _ _ _ _ _ => trivial)
    (fun _ _ _ _ own _ taken => own_step own taken) trivial rfl

private theorem answered_breakpoint {m : SessionManager} {connected : Bool} {reply : Reply}
    {pc pc' : BreakpointPc} (moved : pc.next m connected reply.answer = some pc')
    (before : (CachePc.breakpoint pc).answered = false) (declines : Declines (.breakpoint pc) reply)
    (untracked : Untracked m (.breakpoint pc)) : (CachePc.breakpoint pc').answered = false := by
  cases pc with
  | checkState tool | change tool =>
    simp only [BreakpointPc.next] at moved
    split at moved <;> cases moved <;> rfl
  | checkIdle change | currentBackend change =>
    obtain rfl := Option.some.inj moved
    split <;> rfl
  | pend change | propose change | sending change request =>
    cases moved
    rfl
  | awaiting change request =>
    cases reply with
    | silent | inspector backend => cases moved
    | breakpoints answer =>
      cases change with
      | remove id info =>
        obtain rfl := Option.some.inj moved
        cases answer <;> rfl
      | addSource file line condition =>
        cases answer with
        | error e =>
          cases moved
          rfl
        | ok results =>
          obtain rfl : results = [] := List.isEmpty_iff.mp declines
          cases moved
          rfl
      | addFunction name condition =>
        cases answer with
        | error e =>
          cases moved
          rfl
        | ok results => cases declines
  | commit change bp =>
    cases change with
    | remove id info =>
      simp only [BreakpointPc.next] at moved
      split at moved <;> cases moved <;> rfl
    | addSource | addFunction => cases before
  | record change bp =>
    cases moved
    rfl
  | done outcome => cases moved

private theorem answered_inspect {m : SessionManager} {connected : Bool} {reply : Reply}
    {pc pc' : InspectPc} (moved : pc.next toLowercase m connected reply.backend = some pc')
    (before : (CachePc.inspect pc).answered = false) (declines : Declines (.inspect pc) reply) :
    (CachePc.inspect pc').answered = false := by
  cases pc with
  | backtracing args threadId | resolving tool args threadId =>
    cases reply with
    | silent | breakpoints answer => cases moved
    | inspector backend =>
      obtain ⟨e, failed⟩ := declines
      simp only [InspectPc.next, Reply.backend, Option.map_some, failed] at moved
      cases moved
      rfl
  | reading tool args frameId =>
    cases reply with
    | silent | breakpoints answer => cases moved
    | inspector backend =>
      cases moved
      rfl
  | checkState tool =>
    simp only [InspectPc.next] at moved
    split at moved
    · cases moved
      rfl
    · split at moved
      · cases moved
        rfl
      · split at moved <;> cases moved <;> rfl
  | resolveThread args | frameMapping tool args =>
    simp only [InspectPc.next] at moved
    split at moved <;> cases moved <;> rfl
  | backtraceBackend args threadId | frameBackend tool args =>
    obtain rfl := Option.some.inj moved
    split <;> rfl
  | lastStopped tool args =>
    cases moved
    rfl
  | storeFrames | storeResolved => cases before
  | done outcome => cases moved

private theorem answered_next {m : SessionManager} {connected : Bool} {reply : Reply}
    {pc pc' : CachePc} (moved : pc.next toLowercase m connected reply = some pc')
    (before : pc.answered = false) (declines : Declines pc reply) (untracked : Untracked m pc) :
    pc'.answered = false := by
  cases pc with
  | breakpoint pc =>
    obtain ⟨pc', move, rfl⟩ := Option.map_eq_some_iff.mp moved
    exact answered_breakpoint move before declines untracked
  | inspect pc =>
    obtain ⟨pc', move, rfl⟩ := Option.map_eq_some_iff.mp moved
    exact answered_inspect move before declines

/-- A call that has no answer to write changes nothing. -/
private theorem not_commits {m : SessionManager} {pc : CachePc} (answered : pc.answered = false)
    (untracked : Untracked m pc) : ¬ Commits m pc := by
  cases pc with
  | breakpoint pc =>
    cases pc with
    | commit change bp =>
      cases change with
      | remove id info => exact fun tracked => tracked untracked
      | addSource | addFunction => cases answered
    | record change bp =>
      rintro ⟨info, made, -⟩
      cases change with
      | remove => cases bp <;> cases made
      | addSource | addFunction =>
        cases bp with
        | none => cases made
        | some bp => cases answered
    | _ => exact id
  | inspect pc =>
    cases pc with
    | storeFrames | storeResolved => cases answered
    | _ => exact id

/-- No call that a reset has overtaken has an answer to write. -/
def Unanswered (s : Hosted S) : Prop :=
  ∀ t pc, s.overtaken t = true → s.calls t = some pc → pc.answered = false

private theorem unanswered_step (unanswered : Unanswered s) (inTime : NoLateAnswer s a)
    (taken : s.step toLowercase a = some s') : Unanswered s' := by
  intro t pc late here
  cases a with
  | server b =>
    obtain ⟨-, server, -, rfl⟩ := serve_eq taken
    simp only [Hosted.serve] at late here
    split at late
    · rename_i reset
      exact inTime reset t pc here
    · exact unanswered t pc late here
  | call t' tool =>
    simp only [Hosted.step] at taken
    split at taken
    · obtain rfl := Option.some.inj taken
      by_cases same : t = t'
      · subst same
        simp only [Function.update_self] at late
        cases late
      · simp only [Function.update_of_ne same] at late here
        exact unanswered t pc late here
    · cases taken
  | task t' reply =>
    obtain ⟨pc₀, here₀, rest⟩ := Option.bind_eq_some_iff.mp taken
    obtain ⟨pc', moved, rfl⟩ := Option.map_eq_some_iff.mp rest
    simp only [Hosted.goOn] at late here
    by_cases same : t = t'
    · subst same
      rw [Function.update_self] at here
      obtain rfl := Option.some.inj here
      obtain ⟨declines, untracked⟩ := inTime late pc₀ here₀
      exact answered_next moved (unanswered t pc₀ late here₀) declines untracked
    · rw [Function.update_of_ne same] at here
      exact unanswered t pc late here

private theorem inert_of_unanswered (unanswered : Unanswered s) (inTime : NoLateAnswer s a) :
    Inert s a := by
  cases a with
  | task t reply =>
    intro late pc here
    exact not_commits (unanswered t pc late here) (inTime late pc here).2
  | server | call => trivial

private theorem foreign_operation {b : System.Action S} {server : ToolServer S} {op : Bookkeeping}
    (foreign : isForeign b = true)
    (writes : stepOperation server b = some (.bookkeeping op)) : op = .drainOutput := by
  rcases stepOperation_cases writes with
    ⟨t, choice, -, task⟩ | ⟨c, which, g, event, -, eq⟩ | ⟨b', rfl, eq⟩
  · obtain ⟨pc, -, operation⟩ := Option.bind_eq_some_iff.mp task
    exact absurd operation operation_ne_bookkeeping
  · cases event <;> cases eq
  · cases eq
    cases op with
    | drainOutput => rfl
    | _ => cases foreign

private theorem empty_step (empty : s.own = .empty) (still : ¬ Writes s a)
    (taken : s.step toLowercase a = some s') : s'.own = .empty := by
  cases a with
  | server b =>
    obtain ⟨foreign, server, -, rfl⟩ := serve_eq taken
    simp only [Hosted.serve, empty]
    cases writes : stepOperation s.server b with
    | none => rfl
    | some op =>
      cases op with
      | flushPendingBreakpoints => exact absurd writes still
      | bookkeeping op =>
        obtain rfl := foreign_operation foreign writes
        rfl
      | _ => rfl
  | call t tool => exact (call_eq taken).2.trans empty
  | task t reply =>
    obtain ⟨pc, pc', -, rfl⟩ := goOn_eq taken
    simp only [Writes, Bool.not_eq_false] at still
    simp only [Hosted.goOn, still, if_true, empty]

/-- After a reset, caches that hold only what was written since stay empty until a call that was
issued since writes them, or a launch makes pending breakpoints active. -/
private theorem empty_until_written {s₀ : Hosted S} {b : System.Action S}
    (reset : Resets s.server b)
    (taken : s.step toLowercase (.server b) = some s₀)
    (run : Run (Hosted.step toLowercase) (fun s a => ¬ Writes s a) s₀ as s') (own : Own s') :
    caches s'.server.session = .empty := by
  have empty : s₀.own = .empty := by
    obtain ⟨-, server, -, rfl⟩ := serve_eq taken
    simp only [Hosted.serve, resets_iff.mp reset]
    rfl
  exact own.trans (run.keeps (I := fun s => s.own = .empty)
    (fun _ _ _ empty still taken => empty_step empty still taken) empty)

/-- In every state of a run without a late answer the caches hold only what was written by calls
since the last reset, and after a reset they stay empty until such a call writes them, or a launch
makes pending breakpoints active. -/
theorem commits_own (run : Run (Hosted.step toLowercase) NoLateAnswer Hosted.new as s) :
    Throughout (Hosted.step toLowercase) Own Hosted.new as s ∧
    ∀ (s₁ s₀ : Hosted S) (b : System.Action S) (after : List (Action S)), Resets s₁.server b →
      s₁.step toLowercase (.server b) = some s₀ →
      Run (Hosted.step toLowercase) (fun s a => ¬ Writes s a) s₀ after s →
      caches s.server.session = .empty := by
  have inert : Run (Hosted.step toLowercase) Inert Hosted.new as s :=
    run.strengthen (I := Unanswered)
      (fun _ _ _ unanswered inTime taken => unanswered_step unanswered inTime taken)
      (fun _ _ _ unanswered inTime _ => inert_of_unanswered unanswered inTime)
      fun _ _ late => by cases late
  have own := (own_iff run.any).mpr inert
  exact ⟨own, fun s₁ s₀ b after reset taken later => empty_until_written reset taken later own.2⟩

end

/-- The call awaits the backend. -/
def awaitsBackend : CachePc → Bool
  | .breakpoint (.awaiting ..) => true
  | .inspect (.backtracing ..) | .inspect (.resolving ..) | .inspect (.reading ..) => true
  | _ => false

def awaiting (s : Hosted lldb) (t : Nat) : Bool := (s.calls t).any awaitsBackend

/-- In a session that has stopped at the entry, a breakpoint is set, and its request is sent. -/
def asks : List (Action lldb) :=
  (launchCall 0 true ++ handshake 0 true ++ launchStopped 0).map .server ++
    [.call 0 (.breakpoint (.setFunctionBreakpoint (.ok "main") ""))] ++
    List.replicate 6 (.task 0 .silent)

/-- A disconnect, up to its reset. -/
def disconnects : List (System.Action lldb) :=
  [.call 1 (.disconnect true)] ++ proceed 1 2 ++ exchange 0 1 5 ++
    [poll 0 1, poll 0 1, .conn 0 .childExit, poll 0 1, .task 1 .reply] ++ proceed 1 1

/-- The answer to the request, and the commit. -/
def commits : List (Action lldb) :=
  [.task 0 (.breakpoints (.ok [⟨7, true, 12, ""⟩])), .task 0 .silent]

/-- The step is one of a call that a reset has overtaken. -/
def isLate (s : Hosted lldb) : Action lldb → Bool
  | .task t _ => s.overtaken t
  | .server _ | .call .. => false

private theorem not_writes {s : Hosted lldb} {a : Action lldb} (late : isLate s a = true) :
    ¬ Writes s a := by
  cases a with
  | task t reply => exact fun own => by cases (show s.overtaken t = true from late).symm.trans own
  | server | call => cases late

/-- The reset of the disconnect overtakes the call, which then commits. -/
private theorem committed_late : ∃ s s₀ s' : Hosted lldb,
    Run (Hosted.step id) anyStep Hosted.new (asks ++ disconnects.map .server) s ∧
    awaiting s 0 = true ∧ s.server.tasks 1 = some (.disconnect .reset) ∧
    s.step id (.server (.task 1 .go)) = some s₀ ∧
    Run (Hosted.step id) (fun s a => ¬ Writes s a) s₀ commits s' ∧
    s'.server.session.functionBps.length = 1 := by
  have eval : ((exec (Hosted.step id) anyStep (Hosted.new : Hosted lldb)
      (asks ++ disconnects.map .server)).bind fun s =>
      (s.step id (.server (.task 1 .go))).bind fun s₀ =>
      (exec (Hosted.step id) (fun s a => isLate s a = true) s₀ commits).map fun s' =>
        ((awaiting s 0, resetting s.server 1), s'.server.session.functionBps.length)) =
      some ((true, true), 1) := by
    decide +kernel
  obtain ⟨s, first, rest⟩ := Option.bind_eq_some_iff.mp eval
  obtain ⟨s₀, reset, rest⟩ := Option.bind_eq_some_iff.mp rest
  obtain ⟨s', second, eq⟩ := Option.map_eq_some_iff.mp rest
  obtain ⟨points, listed⟩ := Prod.mk.inj eq
  exact ⟨s, s₀, s', run_of_exec first, (Prod.mk.inj points).1, resetting_eq (Prod.mk.inj points).2,
    reset, (run_of_exec second).weaken fun _ _ late => not_writes late, listed⟩

/-- A call that awaits the backend when a disconnect resets the session fills the caches after
that, though no call has been issued since. -/
theorem commit_after_reset :
    ¬ ∀ (s s₀ s' : Hosted lldb) (t d : Nat) (choice : Handler.Choice lldb)
      (as : List (Action lldb)), Reach (Hosted.step id) Hosted.new s → awaiting s t = true →
      s.server.tasks d = some (.disconnect .reset) →
      s.step id (.server (.task d choice)) = some s₀ →
      Run (Hosted.step id) (fun s a => ¬ Writes s a) s₀ as s' →
      caches s'.server.session = .empty := by
  intro empty
  obtain ⟨s, s₀, s', run, awaits, disconnect, reset, late, listed⟩ := committed_late
  have none := empty s s₀ s' 0 1 .go _ ⟨_, run⟩ awaits disconnect reset late
  have list : s'.server.session.functionBps = [] := congrArg Caches.functions none
  rw [list] at listed
  cases listed

/-- Of the six calls, only those of these tasks are made. -/
def issues (ts : List Nat) : Action lldb → Bool
  | .call t _ => ts.contains t
  | .server _ | .task .. => true

/-- No other task has made one. -/
def Alone (ts : List Nat) (s : Hosted lldb) : Prop := ∀ t, t ∉ ts → s.calls t = none

private theorem alone_step {ts : List Nat} {s s' : Hosted lldb} {a : Action lldb}
    (alone : Alone ts s) (issued : issues ts a = true) (taken : s.step id a = some s') :
    Alone ts s' := by
  intro t other
  cases a with
  | server b =>
    obtain ⟨-, server, -, rfl⟩ := serve_eq taken
    exact alone t other
  | call t' tool =>
    simp only [Hosted.step] at taken
    split at taken
    · obtain rfl := Option.some.inj taken
      refine (Function.update_of_ne ?_ _ _).trans (alone t other)
      rintro rfl
      exact other (List.contains_iff_mem.mp issued)
    · cases taken
  | task t' reply =>
    obtain ⟨pc, pc', here, rfl⟩ := goOn_eq taken
    refine (Function.update_of_ne ?_ _ _).trans (alone t other)
    rintro rfl
    cases (alone t other).symm.trans here

/-- The reset finds none of these calls with its answer; and what a reset has overtaken awaits a
backend that answers with an error. -/
def inTime (ts : List Nat) (s : Hosted lldb) : Action lldb → Bool
  | .server a => !decide (Resets s.server a) ||
    ts.all fun t => (s.calls t).all fun pc => !pc.answered
  | .call .. => true
  | .task t (.breakpoints (.error _)) => !s.overtaken t || awaiting s t
  | .task t _ => !s.overtaken t

private theorem declines_error (pc : CachePc) (e : BackendError) :
    Declines pc (.breakpoints (.error e)) := by
  cases pc with
  | breakpoint pc =>
    cases pc with
    | awaiting change request => cases change <;> rfl
    | _ => trivial
  | inspect pc => cases pc <;> trivial

private theorem noLateAnswer_of_inTime {ts : List Nat} {s : Hosted lldb} {a : Action lldb}
    (alone : Alone ts s) (checked : inTime ts s a = true) : NoLateAnswer s a := by
  have early : ∀ t, (!s.overtaken t) = true → ¬ s.overtaken t = true := fun t early late => by
    rw [late] at early
    cases early
  cases a with
  | server b =>
    intro resets t pc here
    simp only [inTime, resets, decide_true, Bool.not_true, Bool.false_or] at checked
    have mem : t ∈ ts := by
      by_contra other
      cases (alone t other).symm.trans here
    have none := List.all_eq_true.mp checked t mem
    rw [here] at none
    simpa using none
  | call t tool => trivial
  | task t reply =>
    intro late pc here
    cases reply with
    | silent | inspector backend => exact absurd late (early t checked)
    | breakpoints answer =>
      cases answer with
      | ok results => exact absurd late (early t checked)
      | error e =>
        refine ⟨declines_error pc e, ?_⟩
        have awaits : awaiting s t = true := by
          simpa [inTime, late] using checked
        rw [awaiting, here] at awaits
        cases pc with
        | inspect pc | breakpoint pc => cases pc <;> trivial

private theorem run_of_inTime {ts : List Nat} {s : Hosted lldb} {as : List (Action lldb)}
    (issued : as.all (issues ts) = true)
    (executed : exec (Hosted.step id) (fun s a => inTime ts s a = true) Hosted.new as = some s) :
    Run (Hosted.step id) NoLateAnswer Hosted.new as s :=
  (Run.both (run_of_exec executed)
      ((run_of_exec executed).restrict fun a mem _ => List.all_eq_true.mp issued a mem)).strengthen
    (I := Alone ts) (fun _ _ _ alone allowed taken => alone_step alone allowed.2 taken)
    (fun _ _ _ alone allowed _ => noLateAnswer_of_inTime alone allowed.1) fun _ _ => rfl

/-- The request of the call fails, once its session has ended. -/
def declines : List (Action lldb) := [.task 0 (.breakpoints (.error .closed))]

/-- The rest of the disconnect, and a session in which another call sets the breakpoint. -/
def secondSession : List (Action lldb) :=
  (proceed 1 1 ++ launchCall 2 true ++ handshake 2 true ++ launchStopped 2).map .server ++
    [.call 3 (.breakpoint (.setFunctionBreakpoint (.ok "main") ""))] ++
    List.replicate 6 (.task 3 .silent) ++
    [.task 3 (.breakpoints (.ok [⟨9, true, 12, ""⟩])), .task 3 .silent, .task 3 .silent]

/-- The caches stay empty when the request of the overtaken call fails, and hold what the next
session writes. -/
theorem commits_own_sessions : ∃ s₁ s₀ s s' : Hosted lldb,
    s₁.step id (.server (.task 1 .go)) = some s₀ ∧ awaiting s₀ 0 = true ∧
    Run (Hosted.step id) (fun s a => ¬ Writes s a) s₀ declines s ∧
    caches s.server.session = .empty ∧
    Throughout (Hosted.step id) Own Hosted.new
      (asks ++ disconnects.map .server ++ .server (.task 1 .go) :: declines ++ secondSession) s' ∧
    s'.overtaken 0 = true ∧ s'.server.session.functionBps.length = 1 := by
  have eval : ((exec (Hosted.step id) (fun s a => inTime [0, 3] s a = true)
      (Hosted.new : Hosted lldb)
      (asks ++ disconnects.map .server)).bind fun s₁ =>
      (s₁.step id (.server (.task 1 .go))).bind fun s₀ =>
      (exec (Hosted.step id) (fun s a => isLate s a = true) s₀ declines).bind fun s =>
      (exec (Hosted.step id) (fun s a => inTime [0, 3] s a = true) (Hosted.new : Hosted lldb)
        (asks ++ disconnects.map .server ++ .server (.task 1 .go) :: declines)).bind fun _ =>
      (exec (Hosted.step id) (fun s a => inTime [0, 3] s a = true) (Hosted.new : Hosted lldb)
        (asks ++ disconnects.map .server ++ .server (.task 1 .go) :: declines ++
          secondSession)).map fun s' =>
      ((awaiting s₀ 0, resetting s₁.server 1), s'.overtaken 0,
        s'.server.session.functionBps.length)) = some ((true, true), true, 1) := by
    decide +kernel
  obtain ⟨s₁, first, rest⟩ := Option.bind_eq_some_iff.mp eval
  obtain ⟨s₀, reset, rest⟩ := Option.bind_eq_some_iff.mp rest
  obtain ⟨s, late, rest⟩ := Option.bind_eq_some_iff.mp rest
  obtain ⟨k, middle, rest⟩ := Option.bind_eq_some_iff.mp rest
  obtain ⟨s', last, eq⟩ := Option.map_eq_some_iff.mp rest
  simp only [Prod.mk.injEq] at eq
  obtain ⟨⟨awaits, disconnect⟩, overtaken, listed⟩ := eq
  have unwritten := (run_of_exec late).weaken fun _ _ late => not_writes late
  have whole := run_of_inTime (by decide) middle
  have same : k = s := whole.any.last_eq
    ((run_of_exec first).any.append (.cons trivial reset (run_of_exec late).any))
  subst same
  have resets : Resets s₁.server (.task 1 .go) := by
    rw [resets_task, taskOperation_of (resetting_eq disconnect)]
    rfl
  exact ⟨s₁, s₀, k, s', reset, awaits, unwritten,
    (commits_own whole).2 s₁ s₀ _ declines resets reset unwritten,
    (commits_own (run_of_inTime (by decide) last)).1, overtaken, listed⟩

end LldbDebugMcp.Server.LateCommits
