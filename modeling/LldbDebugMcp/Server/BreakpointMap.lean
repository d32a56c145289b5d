/- module: LldbDebugMcp/Server/BreakpointMap
   source: crates/mcp-tools/src/handlers/{breakpoints,lifecycle}.rs,
   crates/mcp-session/src/manager.rs
   digest: The active breakpoint lists, and the entries of the response map for them. -/

import LldbDebugMcp.Server.Breakpoints
import LldbDebugMcp.Server.Lldb

set_option autoImplicit false
set_option relaxedAutoImplicit false

namespace LldbDebugMcp.Server.BreakpointMap

open LldbDebugMcp.Core.Types
open LldbDebugMcp.Client.Message
open LldbDebugMcp.Session.Manager
open LldbDebugMcp.Session.Operation
open LldbDebugMcp.Library.Transition
open LldbDebugMcp.Server.Contract
open LldbDebugMcp.Server.Lifecycle
open LldbDebugMcp.Server.System
open LldbDebugMcp.Server.Steps
open LldbDebugMcp.Server.Lldb
open LldbDebugMcp.Server.Breakpoints

/-- The server, whose breakpoint calls run one at a time. `assigned` is a history variable: the
ids that the adapter gave in its last response about each list. -/
structure Tracked (S : Seam) where
  server : ToolServer S
  assigned : Target → List Int

inductive TrackedAction (S : Seam) where
  | server (a : System.Action S)
  /-- A breakpoint call, and the adapter's answer to the request that it sends. -/
  | breakpoint (tool : BpTool) (answer : Answer)

/-- The writes that belong to the breakpoint calls. -/
def tracks {S : Seam} : System.Action S → Bool
  | .bookkeeping (.setFrameMapping _) | .bookkeeping .drainOutput => false
  | .bookkeeping _ => true
  | .call .. | .cancelToken _ | .task .. | .conn .. | .pump .. => false

/-- The type of the entries for a list. -/
def entryType : Target → String
  | .file _ => "source"
  | .functions => "function"

def entryFile : Target → String
  | .file file => file
  | .functions => ""

/-- What the entries for a list must say: the function, and the condition. -/
def entriesFor : BpRequest → List (String × String)
  | .setBreakpoints _ bps => bps.map fun bp => ("", bp.condition)
  | .setFunctionBreakpoints bps => bps.map fun bp => (bp.name, bp.condition)

def wanted (m : SessionManager) (target : Target) : List (String × String) :=
  entriesFor (current m target)

/-- How many of the listed breakpoints are of this list. -/
def listed (m : SessionManager) (target : Target) : Nat :=
  m.listBreakpoints.countP fun info => info.ty = entryType target ∧ info.file = entryFile target

/-- The entry of an id says what the list wants. -/
structure Describes (target : Target) (want : String × String) (id : Int)
    (info : BreakpointInfo) : Prop where
  id : info.id = id
  ty : info.ty = entryType target
  file : info.file = entryFile target
  function : info.function = want.1
  condition : info.condition = want.2

/-- Every active breakpoint has an entry of its own, under the id that the adapter gave it, and
there are no other entries. -/
structure Booked (m : SessionManager) (assigned : Target → List Int) : Prop where
  entries : ∀ target, List.Forall₂
    (fun want id => ∃ info, m.breakpointInfo id = some info ∧ Describes target want id info)
    (wanted m target) (assigned target)
  own : ∀ target, (assigned target).Nodup
  belongs : ∀ id info, m.breakpointInfo id = some info → ∃ target, id ∈ assigned target

/-- As many entries as active breakpoints, for each list. -/
def Counted (m : SessionManager) : Prop := ∀ target, listed m target = (wanted m target).length

section

variable {m m' : SessionManager} {assigned : Target → List Int} {target : Target} {id : Int}
  {info : BreakpointInfo}

theorem Booked.entry (booked : Booked m assigned) (mem : id ∈ assigned target) :
    ∃ want info, m.breakpointInfo id = some info ∧ Describes target want id info := by
  obtain ⟨i, lt, rfl⟩ := List.getElem_of_mem mem
  have same := (booked.entries target).length_eq
  obtain ⟨info, here, describes⟩ :=
    (List.forall₂_iff_get.mp (booked.entries target)).2 i (same ▸ lt) lt
  exact ⟨_, info, here, describes⟩

/-- An entry says which list it is for. -/
theorem target_eq {target' : Target} (ty : entryType target = entryType target')
    (file : entryFile target = entryFile target') : target = target' := by
  cases target with
  | file path =>
    cases target' with
    | file path' => exact congrArg Target.file file
    | functions => exact absurd ty (show "source" ≠ "function" by decide)
  | functions =>
    cases target' with
    | file path' => exact absurd ty (show "function" ≠ "source" by decide)
    | functions => rfl

/-- The ids of a list are those of the entries for it. -/
theorem Booked.mem_iff (booked : Booked m assigned) : id ∈ assigned target ↔
    ∃ info, m.breakpointInfo id = some info ∧ info.ty = entryType target ∧
      info.file = entryFile target := by
  constructor
  · intro mem
    obtain ⟨want, info, here, describes⟩ := booked.entry mem
    exact ⟨info, here, describes.ty, describes.file⟩
  · rintro ⟨info, here, ty, file⟩
    obtain ⟨target', mem⟩ := booked.belongs id info here
    obtain ⟨want, info', here', describes⟩ := booked.entry mem
    obtain rfl := Option.some.inj (here.symm.trans here')
    exact target_eq (ty.symm.trans describes.ty) (file.symm.trans describes.file) ▸ mem

theorem Booked.counted (booked : Booked m assigned) : Counted m := by
  intro target
  let p : (Sigma fun _ : Int => BreakpointInfo) → Bool := fun e =>
    e.2.ty = entryType target ∧ e.2.file = entryFile target
  have perm : ((m.bpResponses.entries.filter p).map Sigma.fst).Perm (assigned target) := by
    refine (List.perm_ext_iff_of_nodup ?_ (booked.own target)).mpr fun id => ?_
    · exact m.bpResponses.nodupKeys.sublist List.filter_sublist
    · rw [booked.mem_iff]
      constructor
      · intro mem
        obtain ⟨e, kept, rfl⟩ := List.mem_map.mp mem
        obtain ⟨there, holds⟩ := List.mem_filter.mp kept
        exact ⟨e.2, AList.mem_lookup_iff.mpr there, by simpa [p] using holds⟩
      · rintro ⟨info, here, holds⟩
        exact List.mem_map.mpr ⟨⟨id, info⟩, List.mem_filter.mpr
          ⟨AList.mem_lookup_iff.mp here, by simpa [p] using holds⟩, rfl⟩
  have sorted : m.listBreakpoints.Perm (m.bpResponses.entries.map Sigma.snd) :=
    List.mergeSort_perm ..
  calc listed m target
      = (m.bpResponses.entries.map Sigma.snd).countP fun info =>
          info.ty = entryType target ∧ info.file = entryFile target := sorted.countP_eq _
    _ = m.bpResponses.entries.countP p := by rw [List.countP_map]; rfl
    _ = ((m.bpResponses.entries.filter p).map Sigma.fst).length := by
        rw [List.length_map, List.countP_eq_length_filter]
    _ = (assigned target).length := perm.length_eq
    _ = (wanted m target).length := (booked.entries target).length_eq.symm

/-- Nothing is active, and nothing is listed. -/
theorem booked_new : Booked SessionManager.new fun _ => [] where
  entries target := by cases target <;> exact .nil
  own target := List.nodup_nil
  belongs id info h := by cases h

/-- The lists and the map alone matter. -/
theorem Booked.congr (booked : Booked m assigned) (sources : m'.sourceBps = m.sourceBps)
    (functions : m'.functionBps = m.functionBps) (map : m'.bpResponses = m.bpResponses) :
    Booked m' assigned := by
  have same : ∀ target, wanted m' target = wanted m target := by
    intro target
    cases target <;>
      simp only [wanted, current, SessionManager.sourceBreakpointsForFile, sources, functions]
  have info : ∀ id, m'.breakpointInfo id = m.breakpointInfo id := fun id => by
    simp only [SessionManager.breakpointInfo, map]
  refine ⟨fun target => ?_, booked.own, fun id i h => booked.belongs id i (info id ▸ h)⟩
  rw [same target]
  simpa only [info] using booked.entries target

private theorem entries_kept {wants : List (String × String)} {ids : List Int}
    (entries : List.Forall₂ (fun want id => ∃ info, m.breakpointInfo id = some info ∧
      Describes target want id info) wants ids)
    (same : ∀ id ∈ ids, m'.breakpointInfo id = m.breakpointInfo id) :
    List.Forall₂ (fun want id => ∃ info, m'.breakpointInfo id = some info ∧
      Describes target want id info) wants ids := by
  refine List.forall₂_iff_get.mpr ⟨entries.length_eq, fun i lt lt' => ?_⟩
  obtain ⟨info, here, describes⟩ := (List.forall₂_iff_get.mp entries).2 i lt lt'
  exact ⟨info, (same _ (List.get_mem ..)).trans here, describes⟩

/-- One more breakpoint, with an entry under a fresh id. -/
theorem Booked.add (booked : Booked m assigned) (want : String × String)
    (lists : wanted m' target = wanted m target ++ [want])
    (others : ∀ target', target' ≠ target → wanted m' target' = wanted m target')
    (map : m'.bpResponses = m.bpResponses.insert id info) (fresh : m.breakpointInfo id = none)
    (describes : Describes target want id info) :
    Booked m' (Function.update assigned target (assigned target ++ [id])) := by
  have self : m'.breakpointInfo id = some info := by
    rw [SessionManager.breakpointInfo, map, AList.lookup_insert]
  have other : ∀ id', id' ≠ id → m'.breakpointInfo id' = m.breakpointInfo id' := fun id' ne => by
    rw [SessionManager.breakpointInfo, map, AList.lookup_insert_ne ne]
    rfl
  have absent : ∀ target', id ∉ assigned target' := by
    intro target' mem
    obtain ⟨_, _, here, -⟩ := booked.entry mem
    rw [fresh] at here
    cases here
  have kept : ∀ target', List.Forall₂ (fun want id => ∃ info, m'.breakpointInfo id = some info ∧
      Describes target' want id info) (wanted m target') (assigned target') := fun target' =>
    entries_kept (booked.entries target') fun id' mem => other id' fun eq =>
      absent target' (eq ▸ mem)
  refine ⟨fun target' => ?_, fun target' => ?_, fun id' info' here => ?_⟩
  · by_cases same : target' = target
    · subst same
      rw [lists, Function.update_self]
      exact List.rel_append (kept target') (.cons ⟨info, self, describes⟩ .nil)
    · rw [others target' same, Function.update_of_ne same]
      exact kept target'
  · by_cases same : target' = target
    · subst same
      rw [Function.update_self]
      exact List.nodup_append.mpr ⟨booked.own target', List.nodup_singleton id,
        fun x mem y last => by
          rintro rfl
          obtain rfl := List.mem_singleton.mp last
          exact absent target' mem⟩
    · rw [Function.update_of_ne same]
      exact booked.own target'
  · by_cases same : id' = id
    · subst same
      exact ⟨target, by simp⟩
    · rw [other id' same] at here
      obtain ⟨target', mem⟩ := booked.belongs id' info' here
      refine ⟨target', ?_⟩
      by_cases there : target' = target
      · subst there
        simp [mem]
      · rwa [Function.update_of_ne there]

private theorem forall₂_eraseIdx {α β : Type} {R : α → β → Prop} {as : List α} {bs : List β}
    (h : List.Forall₂ R as bs) (i : Nat) : List.Forall₂ R (as.eraseIdx i) (bs.eraseIdx i) := by
  induction h generalizing i with
  | nil => exact .nil
  | cons head tail ih =>
    cases i with
    | zero => exact tail
    | succ i => exact .cons head (ih i)

/-- A breakpoint less, and its entry. -/
theorem Booked.remove {i : Nat} (booked : Booked m assigned) (at_ : (assigned target)[i]? = some id)
    (lists : wanted m' target = (wanted m target).eraseIdx i)
    (others : ∀ target', target' ≠ target → wanted m' target' = wanted m target')
    (map : m'.bpResponses = m.bpResponses.erase id) :
    Booked m' (Function.update assigned target ((assigned target).eraseIdx i)) := by
  have gone : m'.breakpointInfo id = none := by
    rw [SessionManager.breakpointInfo, map, AList.lookup_erase]
  have other : ∀ id', id' ≠ id → m'.breakpointInfo id' = m.breakpointInfo id' := fun id' ne => by
    rw [SessionManager.breakpointInfo, map, AList.lookup_erase_ne ne]
    rfl
  have mem : id ∈ assigned target := List.mem_of_getElem? at_
  have once : ∀ id', id' ∈ (assigned target).eraseIdx i ↔ id' ≠ id ∧ id' ∈ assigned target := by
    intro id'
    rw [List.mem_eraseIdx_iff_getElem?]
    constructor
    · rintro ⟨j, ne, there⟩
      refine ⟨?_, List.mem_of_getElem? there⟩
      rintro rfl
      have lt := (List.getElem?_eq_some_iff.mp there).1
      exact ne ((List.getElem?_inj lt (booked.own target)).mp (there.trans at_.symm))
    · rintro ⟨ne, there⟩
      obtain ⟨j, here⟩ := List.mem_iff_getElem?.mp there
      refine ⟨j, ?_, here⟩
      rintro rfl
      exact ne (Option.some.inj (here.symm.trans at_))
  have elsewhere : ∀ target', target' ≠ target → id ∉ assigned target' := by
    intro target' ne mem'
    obtain ⟨want, info, here, describes⟩ := booked.entry mem
    obtain ⟨want', info', here', describes'⟩ := booked.entry mem'
    obtain rfl := Option.some.inj (here.symm.trans here')
    exact ne (target_eq (describes'.ty.symm.trans describes.ty)
      (describes'.file.symm.trans describes.file))
  refine ⟨fun target' => ?_, fun target' => ?_, fun id' info' here => ?_⟩
  · by_cases same : target' = target
    · subst same
      rw [lists, Function.update_self]
      exact entries_kept (forall₂_eraseIdx (booked.entries target') i) fun id' mem' =>
        other id' ((once id').mp mem').1
    · rw [others target' same, Function.update_of_ne same]
      exact entries_kept (booked.entries target') fun id' mem' => other id' fun eq =>
        elsewhere target' same (eq ▸ mem')
  · by_cases same : target' = target
    · subst same
      rw [Function.update_self]
      exact (booked.own target').eraseIdx i
    · rw [Function.update_of_ne same]
      exact booked.own target'
  · by_cases same : id' = id
    · rw [same, gone] at here
      cases here
    · rw [other id' same] at here
      obtain ⟨target', mem'⟩ := booked.belongs id' info' here
      refine ⟨target', ?_⟩
      by_cases there : target' = target
      · subst there
        rw [Function.update_self]
        exact (once id').mpr ⟨same, mem'⟩
      · rwa [Function.update_of_ne there]

end

namespace Tracked

variable {S : Seam}

def new : Tracked S := ⟨ToolServer.new, fun _ => []⟩

def step (s : Tracked S) : TrackedAction S → Option (Tracked S)
  | .server a =>
    if tracks a then none
    else (s.server.step a).map fun server =>
      ⟨server, if Resets s.server a then fun _ => [] else s.assigned⟩
  | .breakpoint tool answer =>
    let handled := tool.handle s.server.session (s.server.backend.map fun _ _ => answer)
    some ⟨{ s.server with session := handled.session },
      match handled.sent, answer with
      | some request, .ok results =>
        Function.update s.assigned request.target (results.map (·.id))
      | _, _ => s.assigned⟩

end Tracked

/-- The breakpoint that a removal drops from its list. -/
def firstMatch (m : SessionManager) (info : BreakpointInfo) : Option Nat :=
  if info.ty = "function" then m.functionBps.findIdx? fun bp => bp.name = info.function
  else (m.sourceBreakpointsForFile info.file).findIdx? fun bp => bp.line = info.line

section

variable {S : Seam}

/-- The adapter keeps the ids of a list, and gives the breakpoint at its end one of its own. -/
def Appends (s : Tracked S) (target : Target) (results : List BreakpointResult) : Prop :=
  match results.getLast? with
  | some bp => results.map (·.id) = s.assigned target ++ [bp.id] ∧
    s.server.session.breakpointInfo bp.id = none
  | none => False

/-- What the answer to a change must be like: an addition gets an id of its own, and no
breakpoint before it stands on its line; the first breakpoint of the line or of the function is
the one that a removal names, and the adapter keeps the ids of the others. -/
def Fits (s : Tracked S) (results : List BreakpointResult) : Change → Prop
  | .addSource file line _ =>
    Appends s (.file file) results ∧ ∀ bp ∈ results.dropLast, bp.line ≠ line
  | .addFunction _ _ => Appends s .functions results
  | .remove id info =>
    match firstMatch s.server.session info with
    | some i => (s.assigned (Change.remove id info).target)[i]? = some id ∧
      results.map (·.id) = (s.assigned (Change.remove id info).target).eraseIdx i
    | none => False

def isFlush : SessionOp → Bool
  | .flushPendingBreakpoints => true
  | _ => false

/-- A launch finds no pending breakpoints, and the answers to changes are such that each
breakpoint keeps the entry that was made for it. -/
def Keeps (s : Tracked S) : TrackedAction S → Prop
  | .server (.task t _) => (taskOperation s.server t).any isFlush = true →
    s.server.session.pendingSourceBps.entries = [] ∧ s.server.session.pendingFunctionBps = []
  | .breakpoint tool (.ok results) =>
    match tool.change s.server.session with
    | .ok change => s.server.session.state = .stopped → Fits s results change
    | .error _ => True
  | _ => True

instance (s : Tracked S) (target : Target) (results : List BreakpointResult) :
    Decidable (Appends s target results) :=
  match h : results.getLast? with
  | some bp => decidable_of_iff (results.map (·.id) = s.assigned target ++ [bp.id] ∧
      s.server.session.breakpointInfo bp.id = none) (by simp only [Appends, h])
  | none => .isFalse (by simp only [Appends, h, not_false_eq_true])

instance (s : Tracked S) (results : List BreakpointResult) : (change : Change) →
    Decidable (Fits s results change)
  | .addSource _ _ _ => inferInstanceAs (Decidable (_ ∧ _))
  | .addFunction _ _ => inferInstanceAs (Decidable (Appends _ _ _))
  | .remove id info =>
    match h : firstMatch s.server.session info with
    | some i => decidable_of_iff ((s.assigned (Change.remove id info).target)[i]? = some id ∧
      results.map (·.id) = (s.assigned (Change.remove id info).target).eraseIdx i)
      (by simp only [Fits, h])
    | none => .isFalse (by simp only [Fits, h, not_false_eq_true])

instance (s : Tracked S) : (a : TrackedAction S) → Decidable (Keeps s a)
  | .server (.task _ _) => inferInstanceAs (Decidable (_ → _ ∧ _))
  | .breakpoint tool (.ok results) =>
    match h : tool.change s.server.session with
    | .ok change => decidable_of_iff (s.server.session.state = .stopped → Fits s results change)
      (by simp only [Keeps, h])
    | .error _ => .isTrue (by simp only [Keeps, h])
  | .breakpoint _ (.error _) | .server (.call _ _) | .server (.cancelToken _)
  | .server (.conn _ _) | .server (.pump _ _) | .server (.bookkeeping _) => .isTrue trivial

end

section

variable {S : Seam}

theorem appends_iff {s : Tracked S} {target : Target} {results : List BreakpointResult} :
    Appends s target results ↔ ∃ front bp, results = front ++ [bp] ∧
      results.map (·.id) = s.assigned target ++ [bp.id] ∧
      s.server.session.breakpointInfo bp.id = none := by
  unfold Appends
  constructor
  · intro appends
    split at appends
    · rename_i bp last
      obtain ⟨front, rfl⟩ := List.getLast?_eq_some_iff.mp last
      exact ⟨front, bp, rfl, appends⟩
    · cases appends
  · rintro ⟨front, bp, rfl, ids, fresh⟩
    rw [List.getLast?_concat]
    exact ⟨ids, fresh⟩

/-! Steps. -/

/-- A step of the server is one that the breakpoint calls do not make. -/
theorem server_taken {s s' : Tracked S} {a : System.Action S}
    (taken : s.step (.server a) = some s') :
    tracks a = false ∧ ∃ server, s.server.step a = some server ∧
      s' = ⟨server, if Resets s.server a then fun _ => [] else s.assigned⟩ := by
  simp only [Tracked.step] at taken
  split at taken
  · cases taken
  · rename_i untracked
    obtain ⟨server, stepped, rfl⟩ := Option.map_eq_some_iff.mp taken
    exact ⟨Bool.not_eq_true _ ▸ untracked, server, stepped, rfl⟩

/-- A breakpoint call goes one of the ways that there are. -/
theorem breakpoint_taken {s s' : Tracked S} {tool : BpTool} {answer : Answer} :
    s.step (.breakpoint tool answer) = some s' →
    ∃ session sent, Handles s.server.session (s.server.backend.map fun _ _ => answer) tool
        session sent ∧
      s' = ⟨{ s.server with session := session },
        match sent, answer with
        | some request, .ok results =>
          Function.update s.assigned request.target (results.map (·.id))
        | _, _ => s.assigned⟩ := by
  intro taken
  obtain rfl := Option.some.inj taken
  exact ⟨_, _, handles tool s.server.session (s.server.backend.map fun _ _ => answer), rfl⟩

/-- The lists and the map change only by a flush, a reset and the breakpoint calls. -/
theorem Booked.apply {m : SessionManager} {assigned : Target → List Int} {op : SessionOp}
    (booked : Booked m assigned) (noReset : op ≠ .resetInner)
    (noFlush : op = .flushPendingBreakpoints →
      m.pendingSourceBps.entries = [] ∧ m.pendingFunctionBps = [])
    (noTrack : ∀ b, op = .bookkeeping b → tracks (S := S) (.bookkeeping b) = false) :
    Booked (op.apply m) assigned := by
  cases op with
  | resetInner => exact absurd rfl noReset
  | setStateIfGeneration | terminateIfGeneration =>
    simp only [SessionOp.apply, SessionManager.setStateIfGeneration,
      SessionManager.terminateIfGeneration]
    split
    · exact booked
    · exact booked.congr rfl rfl rfl
  | flushPendingBreakpoints =>
    obtain ⟨sources, functions⟩ := noFlush rfl
    refine booked.congr ?_ ?_ rfl
    · simp only [SessionOp.apply, SessionManager.flushPendingBreakpoints, sources]
      rfl
    · simp only [SessionOp.apply, SessionManager.flushPendingBreakpoints, functions,
        List.append_nil]
  | bookkeeping b =>
    have untracked := noTrack b rfl
    cases b with
    | setFrameMapping | drainOutput => exact booked.congr rfl rfl rfl
    | _ => cases untracked
  | _ => exact booked.congr rfl rfl rfl

private theorem untracked_write {s : ToolServer S} {a : System.Action S} {b : Bookkeeping}
    (untracked : tracks a = false) (writes : stepOperation s a = some (.bookkeeping b)) :
    tracks (S := S) (.bookkeeping b) = false := by
  rcases stepOperation_cases writes with ⟨t, choice, rfl, eq⟩ | ⟨c, which, g, event, -, eq⟩ |
    ⟨b', rfl, eq⟩
  · obtain ⟨pc, -, eq⟩ := Option.bind_eq_some_iff.mp eq
    exact absurd eq operation_ne_bookkeeping
  · cases event <;> cases eq
  · obtain rfl : b = b' := SessionOp.bookkeeping.inj eq
    exact untracked

private theorem flush_write {s : ToolServer S} {a : System.Action S}
    (writes : stepOperation s a = some .flushPendingBreakpoints) :
    ∃ t choice, a = .task t choice ∧ taskOperation s t = some .flushPendingBreakpoints := by
  rcases stepOperation_cases writes with task | ⟨c, which, g, event, -, eq⟩ | ⟨b, -, eq⟩
  · exact task
  · cases event <;> cases eq
  · cases eq

private theorem booked_server {s : Tracked S} {a : System.Action S} {server : ToolServer S}
    (booked : Booked s.server.session s.assigned) (keeps : Keeps s (.server a))
    (untracked : tracks a = false) (taken : s.server.step a = some server) :
    Booked server.session (if Resets s.server a then fun _ => [] else s.assigned) := by
  rw [step_session taken]
  by_cases reset : Resets s.server a
  · rw [if_pos reset, resets_iff.mp reset]
    exact booked_new.congr rfl rfl rfl
  · rw [if_neg reset]
    cases writes : stepOperation s.server a with
    | none => exact booked
    | some op =>
      refine booked.apply (S := S) ?_ ?_ ?_
      · rintro rfl
        exact reset (resets_iff.mpr writes)
      · rintro rfl
        obtain ⟨t, choice, rfl, flush⟩ := flush_write writes
        exact keeps (by rw [flush]; rfl)
      · rintro b rfl
        exact untracked_write untracked writes

/-- The entries of a session are of the two kinds that the breakpoint calls make. -/
private theorem typed_server {s s' : ToolServer S} {a : System.Action S} (typed : Typed s.session)
    (untracked : tracks a = false) (taken : s.step a = some s') : Typed s'.session := by
  rw [step_session taken]
  cases writes : stepOperation s a with
  | none => exact typed
  | some op =>
    cases op with
    | resetInner => exact fun id info here => by cases here
    | setStateIfGeneration | terminateIfGeneration =>
      simp only [applyOption, SessionOp.apply, SessionManager.setStateIfGeneration,
        SessionManager.terminateIfGeneration]
      split
      · exact typed
      · exact typed
    | bookkeeping b =>
      have outside := untracked_write untracked writes
      cases b with
      | setFrameMapping | drainOutput => exact typed
      | _ => cases outside
    | _ => exact typed

theorem typed_step {s s' : Tracked S} {a : TrackedAction S} (typed : Typed s.server.session)
    (taken : s.step a = some s') : Typed s'.server.session := by
  cases a with
  | server a =>
    obtain ⟨untracked, server, stepped, rfl⟩ := server_taken taken
    exact typed_server typed untracked stepped
  | breakpoint tool answer =>
    obtain ⟨session, sent, handled, rfl⟩ := breakpoint_taken taken
    cases handled with
    | refused | failed => exact typed
    | @pended change idle asks =>
      have kept := typed_write typed (.pend change)
      rwa [write_pend] at kept
    | @committed change answer' results bp m' stopped asks slot answered result commits =>
      have kept := typed_write (typed_write typed (.commit change bp)) (.record change bp)
      rwa [write_commit commits, write_record] at kept

/-- In every session that the server can reach. -/
theorem typed_reach {s : Tracked S} (reach : Reach Tracked.step Tracked.new s) :
    Typed s.server.session := by
  have start : Typed (Tracked.new : Tracked S).server.session := fun id info here => by cases here
  exact reach.keeps (I := fun s => Typed s.server.session)
    (fun _ _ _ typed taken => typed_step typed taken) start

/-! The changes. -/

section

variable {m : SessionManager} {assigned : Target → List Int} {results : List BreakpointResult}

/-- The new breakpoint is the last of the response, also when it is picked by its line. -/
private theorem matched_last {front : List BreakpointResult} {bp : BreakpointResult} {line : Int}
    (others : ∀ bp ∈ front, bp.line ≠ line) : matchedResult line (front ++ [bp]) = some bp := by
  have none : front.find? (fun bp => bp.line = line) = none :=
    List.find?_eq_none.mpr fun bp mem => by simpa using others bp mem
  unfold matchedResult
  rw [List.find?_append, none, List.getLast?_concat]
  by_cases here : bp.line = line <;> simp [here]

/-- The change goes through, and the books are kept. -/
private def GoesThrough (s : Tracked S) (results : List BreakpointResult) (change : Change) :
    Prop :=
  ∃ bp m', change.result results = .ok bp ∧ change.commit s.server.session = .ok m' ∧
    Booked (change.record m' bp) (Function.update s.assigned change.target (results.map (·.id)))

private theorem booked_addSource {s : Tracked S} {file condition : String} {line : Int}
    (booked : Booked s.server.session s.assigned)
    (fits : Fits s results (.addSource file line condition)) :
    GoesThrough s results (.addSource file line condition) := by
  obtain ⟨appends, others⟩ := fits
  obtain ⟨front, bp, rfl, ids, fresh⟩ := appends_iff.mp appends
  rw [List.dropLast_concat] at others
  obtain ⟨m', committed, self, rest, map, -⟩ := @Change.commits s.server.session
    (.addSource file line condition) trivial
  refine ⟨some bp, m', by simp only [Change.result, matched_last others], committed, ?_⟩
  rw [ids]
  refine booked.add ("", condition) ?_ (fun target ne => ?_)
    (congrArg (AList.insert bp.id _) map) fresh ⟨rfl, rfl, rfl, rfl, rfl⟩
  · simp only [wanted, current_record, self]
    simp [entriesFor, Change.proposed, current, Change.target]
  · simp only [wanted, current_record, rest target ne]

private theorem booked_addFunction {s : Tracked S} {name condition : String}
    (booked : Booked s.server.session s.assigned)
    (fits : Fits s results (.addFunction name condition)) :
    GoesThrough s results (.addFunction name condition) := by
  obtain ⟨front, bp, rfl, ids, fresh⟩ := appends_iff.mp fits
  obtain ⟨m', committed, self, rest, map, -⟩ := @Change.commits s.server.session
    (.addFunction name condition) trivial
  refine ⟨some bp, m', by simp only [Change.result, List.getLast?_concat], committed, ?_⟩
  rw [ids]
  refine booked.add (name, condition) ?_ (fun target ne => ?_)
    (congrArg (AList.insert bp.id _) map) fresh ⟨rfl, rfl, rfl, rfl, rfl⟩
  · simp only [wanted, current_record, self]
    simp [entriesFor, Change.proposed, current, Change.target]
  · simp only [wanted, current_record, rest target ne]

/-- A removal takes the breakpoint and its entry. -/
private theorem booked_remove {s : Tracked S} {id : Int} {info : BreakpointInfo}
    (booked : Booked s.server.session s.assigned)
    (here : s.server.session.breakpointInfo id = some info)
    (fits : Fits s results (.remove id info)) : GoesThrough s results (.remove id info) := by
  obtain ⟨i, first, at_, ids⟩ : ∃ i, firstMatch s.server.session info = some i ∧
      (s.assigned (Change.remove id info).target)[i]? = some id ∧
      results.map (·.id) = (s.assigned (Change.remove id info).target).eraseIdx i := by
    simp only [Fits] at fits
    split at fits
    · rename_i i first
      exact ⟨i, first, fits⟩
    · cases fits
  obtain ⟨want, info', here', describes⟩ := booked.entry (List.mem_of_getElem? at_)
  obtain rfl := Option.some.inj (here.symm.trans here')
  have typed : info.ty = "source" ∨ info.ty = "function" := by
    rw [describes.ty]
    cases (Change.remove id info).target
    · exact .inl rfl
    · exact .inr rfl
  obtain ⟨m', committed, self, rest, map, -⟩ := @Change.commits s.server.session (.remove id info)
    ⟨here, typed⟩
  refine ⟨none, m', rfl, committed, ?_⟩
  rw [ids]
  refine booked.remove at_ ?_ (fun target ne => ?_) map
  · change entriesFor (current m' _) = (entriesFor _).eraseIdx i
    rw [self]
    by_cases function : info.ty = "function"
    · simp only [firstMatch, if_pos function] at first
      simp only [Change.target, Change.proposed, if_pos function, current, entriesFor,
        remainingFunctionBreakpoints, List.eraseP_eq_eraseIdx, first, List.eraseIdx_map]
    · simp only [firstMatch, if_neg function] at first
      simp only [Change.target, Change.proposed, if_neg function, current, entriesFor,
        remainingSourceBreakpoints, List.eraseP_eq_eraseIdx, first, List.eraseIdx_map]
  · exact congrArg entriesFor (rest target ne)

private theorem booked_change {s : Tracked S} {change : Change}
    (booked : Booked s.server.session s.assigned) (fits : Fits s results change)
    (here : ∀ id info, change = .remove id info →
      s.server.session.breakpointInfo id = some info) : GoesThrough s results change := by
  cases change with
  | addSource file line condition => exact booked_addSource booked fits
  | addFunction name condition => exact booked_addFunction booked fits
  | remove id info => exact booked_remove booked (here id info rfl) fits

/-- A removal has looked up its entry. -/
theorem looked_up {tool : BpTool} {m : SessionManager} {id : Int} {info : BreakpointInfo}
    (asks : tool.change m = .ok (.remove id info)) : m.breakpointInfo id = some info := by
  cases tool with
  | setBreakpoint file line condition => cases file <;> cases line <;> cases asks
  | setFunctionBreakpoint name condition => cases name <;> cases asks
  | removeBreakpoint arg =>
    cases arg with
    | error e => cases asks
    | ok id' =>
      simp only [BpTool.change] at asks
      split at asks
      · rename_i here
        cases asks
        exact here
      · cases asks

end

/-- One step keeps the books. -/
theorem booked_step {s s' : Tracked S} {a : TrackedAction S}
    (booked : Booked s.server.session s.assigned) (keeps : Keeps s a)
    (taken : s.step a = some s') : Booked s'.server.session s'.assigned := by
  cases a with
  | server a =>
    obtain ⟨untracked, server, stepped, rfl⟩ := server_taken taken
    exact booked_server booked keeps untracked stepped
  | breakpoint tool answer =>
    obtain ⟨session, sent, handled, rfl⟩ := breakpoint_taken taken
    cases handled with
    | refused => exact booked
    | @pended change idle asks => cases change <;> exact booked.congr rfl rfl rfl
    | @failed change answer' stopped asks slot fails =>
      obtain ⟨b, -, rfl⟩ := Option.map_eq_some_iff.mp slot
      cases answer with
      | error e => exact booked
      | ok results =>
        have fits := keeps
        simp only [Keeps, asks] at fits
        obtain ⟨bp, m', result, commits, -⟩ := booked_change booked (fits stopped)
          fun id info eq => looked_up (eq ▸ asks)
        exact absurd commits (fails results bp m' rfl result)
    | @committed change answer' results bp m' stopped asks slot answered result commits =>
      obtain ⟨b, -, rfl⟩ := Option.map_eq_some_iff.mp slot
      obtain rfl : answer = .ok results := answered
      have fits := keeps
      simp only [Keeps, asks] at fits
      obtain ⟨bp', m₁, result', commits', kept⟩ := booked_change booked (fits stopped)
        fun id info eq => looked_up (eq ▸ asks)
      obtain rfl := Except.ok.inj (result.symm.trans result')
      obtain rfl := Except.ok.inj (commits.symm.trans commits')
      rw [← @proposed_target s.server.session change] at kept
      exact kept

/-- In a run whose launches find no pending breakpoints, and in which the adapter gives every
new breakpoint an id of its own and leaves the others theirs, each active breakpoint has its
own entry under the adapter's id, and there are no others. -/
theorem books_kept {s : Tracked S} {as : List (TrackedAction S)}
    (run : Run Tracked.step Keeps Tracked.new as s) :
    Booked s.server.session s.assigned ∧ Counted s.server.session := by
  have booked := run.keeps (I := fun s => Booked s.server.session s.assigned)
    (fun _ _ _ booked keeps taken => booked_step booked keeps taken) booked_new
  exact ⟨booked, booked.counted⟩

end

/-- A launch with nothing pending, two breakpoints in one file, and the removal of the first. -/
def setAndRemove : List (TrackedAction lldb) :=
  (launchCall 0 true ++ handshake 0 true ++ launchStopped 0).map .server ++
    [.breakpoint (.setBreakpoint (.ok "a.c") (.ok 3) "") (.ok [⟨1, true, 3, ""⟩]),
      .breakpoint (.setBreakpoint (.ok "a.c") (.ok 5) "")
        (.ok [⟨1, true, 3, ""⟩, ⟨2, true, 5, ""⟩]),
      .breakpoint (.removeBreakpoint (.ok 1)) (.ok [⟨2, true, 5, ""⟩])]

theorem books_kept_setAndRemove : ∃ s : Tracked lldb, s.server.session.state = .stopped ∧
    s.assigned (.file "a.c") = [2] ∧
    Booked s.server.session s.assigned ∧ Counted s.server.session := by
  have eval : (exec Tracked.step Keeps (Tracked.new : Tracked lldb) setAndRemove).map
      (fun s => (s.server.session.state, s.assigned (.file "a.c"))) = some (.stopped, [2]) := by
    decide +kernel
  obtain ⟨s, done, eq⟩ := Option.map_eq_some_iff.mp eval
  obtain ⟨stopped, assigned⟩ := Prod.mk.inj eq
  exact ⟨s, stopped, assigned, books_kept (run_of_exec done)⟩

/-- The calls run one at a time, and the adapter answers with an id for each breakpoint. -/
def OneAtATime {S : Seam} (s : Tracked S) : TrackedAction S → Prop
  | .server (.call _ _) => Quiet s.server
  | .breakpoint tool answer => Quiet s.server ∧
    ∀ change, tool.change s.server.session = .ok change → s.server.session.state = .stopped →
      ∃ results, answer = .ok results ∧
        results.length = (entriesFor (change.proposed s.server.session)).length
  | _ => True

/-- The answer to the breakpoints of a launch. -/
def setBreakpointsAnswer (seq : Int) : DapMessage :=
  .response ⟨0, "response", seq, true, "setBreakpoints", "", some (.object [("breakpoints",
    .array [.object [("id", .int 1), ("verified", .bool true), ("line", .int 3)]])])⟩

/-- A breakpoint that is pending when the program is launched. -/
def launchPending : List (TrackedAction lldb) :=
  .breakpoint (.setBreakpoint (.ok "a.c") (.ok 3) "") (.ok []) ::
    (launchCall 0 true ++ exchange 0 0 1 ++ write 0 0 ++
      [receive 0 (.event .initialized), poll 0 0] ++ write 0 0 ++
      [receive 0 (setBreakpointsAnswer 3), poll 0 0] ++ exchange 0 0 4 ++ [poll 0 0] ++
      exchange 0 0 5 ++ launchStopped 0).map .server

/-- No task but the first, which is called once. -/
private def firstCall (s : Tracked lldb) : TrackedAction lldb → Bool
  | .server (.call t _) => t == 0 && (s.server.tasks 0).isNone
  | .breakpoint _ _ => (s.server.tasks 0).isNone && s.server.session.state == .idle
  | _ => true

private def Lone (s : Tracked lldb) : Prop := ∀ t, t ≠ 0 → s.server.tasks t = none

private theorem Lone.quiet {s : Tracked lldb} (lone : Lone s) (free : s.server.tasks 0 = none) :
    Quiet s.server := by
  intro t pc at_
  by_cases first : t = 0
  · subst first
    cases at_.symm.trans free
  · cases at_.symm.trans (lone t first)

private theorem Lone.step {s s' : Tracked lldb} {a : TrackedAction lldb} (lone : Lone s)
    (first : firstCall s a = true) (taken : s.step a = some s') : Lone s' := by
  intro t other
  cases a with
  | breakpoint =>
    obtain rfl := Option.some.inj taken
    exact lone t other
  | server a =>
    obtain ⟨-, server, stepped, rfl⟩ := server_taken taken
    refine task_absent stepped (lone t other) ?_
    rintro tool rfl
    obtain ⟨called, -⟩ := Bool.and_eq_true_iff.mp first
    exact other (beq_iff_eq.mp called)

private theorem Lone.oneAtATime {s : Tracked lldb} {a : TrackedAction lldb} (lone : Lone s)
    (first : firstCall s a = true) : OneAtATime s a := by
  cases a with
  | server a =>
    cases a with
    | call t tool =>
      obtain ⟨-, free⟩ := Bool.and_eq_true_iff.mp first
      exact lone.quiet (Option.isNone_iff_eq_none.mp free)
    | _ => trivial
  | breakpoint tool answer =>
    obtain ⟨free, idle⟩ := Bool.and_eq_true_iff.mp first
    refine ⟨lone.quiet (Option.isNone_iff_eq_none.mp free), fun _ _ stopped => ?_⟩
    cases (beq_iff_eq.mp idle).symm.trans stopped

/-- A breakpoint that a launch sets has no entry. -/
theorem pending_unlisted : ¬ ∀ (as : List (TrackedAction lldb)) (s : Tracked lldb),
    Run Tracked.step OneAtATime Tracked.new as s → Quiet s.server →
      s.server.session.state = .stopped → Counted s.server.session := by
  intro counted
  have eval : (exec Tracked.step (fun s a => firstCall s a = true) (Tracked.new : Tracked lldb)
      launchPending).map (fun s => (s.server.session.state, returned s.server 0,
        s.server.session.bpResponses.entries.isEmpty,
        (wanted s.server.session (.file "a.c")).length)) = some (.stopped, true, true, 1) := by
    decide +kernel
  obtain ⟨s, done, eq⟩ := Option.map_eq_some_iff.mp eval
  simp only [Prod.mk.injEq] at eq
  obtain ⟨stopped, back, empty, one⟩ := eq
  have run := run_of_exec done
  have start : Lone (Tracked.new : Tracked lldb) := fun _ _ => rfl
  have lone := run.keeps (I := Lone) (fun _ _ _ lone first taken => lone.step first taken) start
  have alone : Run Tracked.step OneAtATime Tracked.new launchPending s :=
    run.strengthen (I := Lone) (fun _ _ _ lone first taken => lone.step first taken)
      (fun _ _ _ lone first _ => lone.oneAtATime first) start
  have quiet : Quiet s.server := by
    intro t pc at_
    by_cases first : t = 0
    · obtain ⟨outcome, done⟩ := returned_eq back
      subst first
      exact ⟨outcome, Option.some.inj (at_.symm.trans done)⟩
    · cases at_.symm.trans (lone t first)
  have unlisted : listed s.server.session (.file "a.c") = 0 := by
    unfold listed SessionManager.listBreakpoints
    rw [List.isEmpty_iff.mp empty, List.map_nil, List.mergeSort_nil, List.countP_nil]
  have same := counted _ s alone quiet stopped (.file "a.c")
  omega

end LldbDebugMcp.Server.BreakpointMap
