/- module: LldbDebugMcp/Server/BreakpointLists
   source: crates/mcp-tools/src/handlers/breakpoints.rs, crates/mcp-session/src/manager.rs
   digest: Breakpoint calls that run at once, and the lists that the adapter has processed. -/

import LldbDebugMcp.Library.Transition
import LldbDebugMcp.Server.Breakpoints

set_option autoImplicit false
set_option relaxedAutoImplicit false

namespace LldbDebugMcp.Server.BreakpointLists

open LldbDebugMcp.Core.Types
open LldbDebugMcp.Session.Manager
open LldbDebugMcp.Session.Operation
open LldbDebugMcp.Library.Transition
open LldbDebugMcp.Server.Response
open LldbDebugMcp.Server.Breakpoints

/-- The breakpoint calls on one session, and the adapter. The requests reach the adapter in the
order in which they were written; `processed` is a history variable. -/
structure Parties where
  session : SessionManager
  connected : Bool
  tasks : Nat → Option BreakpointPc
  /-- The answers that have come back, by the task that sent the request. -/
  answers : Nat → Option Answer
  wire : List (Nat × BpRequest)
  processed : List BpRequest

inductive PartyAction where
  | call (t : Nat) (tool : BpTool)
  | task (t : Nat)
  /-- The write fails, or the connection ends before the answer. -/
  | fail (t : Nat) (e : BackendError)
  /-- The adapter takes the oldest request, and answers it. -/
  | process (answer : Answer)

namespace Parties

/-- The request fails with an error. -/
def failed (e : BackendError) : BreakpointPc → Option BreakpointPc
  | .sending change _ | .awaiting change _ => some (.done (.error (change.target.opError.render e)))
  | _ => none

def setTask (s : Parties) (t : Nat) (pc : BreakpointPc) : Parties :=
  { s with tasks := Function.update s.tasks t (some pc) }

/-- A task goes on from a point to the next. -/
def goOn (s : Parties) (t : Nat) (pc pc' : BreakpointPc) : Parties :=
  { s with
    session := pc.write s.session
    tasks := Function.update s.tasks t (some pc')
    wire := s.wire ++ pc.written.map fun request => (t, request) }

def step (s : Parties) : PartyAction → Option Parties
  | .call t tool => if s.tasks t = none then some (s.setTask t (.checkState tool)) else none
  | .task t => (s.tasks t).bind fun pc =>
    (pc.next s.session s.connected (s.answers t)).map (s.goOn t pc)
  | .fail t e => (s.tasks t).bind fun pc => (failed e pc).map (s.setTask t)
  | .process answer =>
    match s.wire with
    | [] => none
    | (t, request) :: rest =>
      some { s with
        wire := rest
        answers := Function.update s.answers t (some answer)
        processed := s.processed ++ [request] }

end Parties

/-- The last request about a target. -/
def lastOf (target : Target) (log : List BpRequest) : Option BpRequest :=
  (log.filter fun request => request.target = target).getLast?

/-- The active list is the one that the adapter processed last. -/
def Synced (s : Parties) (target : Target) : Prop :=
  ∀ request, lastOf target s.processed = some request → request = current s.session target

/-- A stopped session with no breakpoint call in flight. -/
structure Start (s : Parties) : Prop where
  stopped : s.session.state = .stopped
  connected : s.connected = true
  idle : ∀ t, s.tasks t = none
  unanswered : ∀ t, s.answers t = none
  silent : s.wire = []
  synced : ∀ target, Synced s target
  typed : Typed s.session

def Returned (s : Parties) : Prop :=
  ∀ t pc, s.tasks t = some pc → ∃ outcome, pc = .done outcome

/-- The backend accepts every request, with a result for each breakpoint. -/
def Accepts (s : Parties) : PartyAction → Prop
  | .fail _ _ => False
  | .process answer =>
    match s.wire, answer with
    | (_, request) :: _, .ok results => results.length = request.size
    | _ :: _, .error _ => False
    | [], _ => True
  | .call _ _ | .task _ => True

instance (s : Parties) : (a : PartyAction) → Decidable (Accepts s a)
  | .fail _ _ => .isFalse id
  | .process answer =>
    match wire : s.wire, answer with
    | (_, request) :: _, .ok results =>
      decidable_of_iff (results.length = request.size) (by simp only [Accepts, wire])
    | _ :: _, .error _ => .isFalse (by simp only [Accepts, wire, not_false_eq_true])
    | [], _ => .isTrue (by simp only [Accepts, wire])
  | .call _ _ | .task _ => .isTrue trivial

/-- The task has read the list, and not yet committed to it. -/
def holds (target : Target) : BreakpointPc → Bool
  | .sending change _ | .awaiting change _ | .commit change _ => change.target = target
  | _ => false

/-- A removal commits what it has proposed: its entry still names the same breakpoint, or has
gone and named none. -/
def Settled (m : SessionManager) : Change → Prop
  | .addSource .. | .addFunction .. => True
  | .remove id info =>
    match m.breakpointInfo id with
    | some info' => (info'.ty, info'.file, info'.line, info'.function) =
        (info.ty, info.file, info.line, info.function)
    | none => (Change.remove id info).proposed m = current m (Change.remove id info).target

/-- A task reads a list only while no other is between its read and its commit of that list. -/
def Exclusive (s : Parties) : PartyAction → Prop
  | .task t =>
    match s.tasks t with
    | some (.propose change) =>
      ∀ t' pc, s.tasks t' = some pc → holds change.target pc = false
    | some (.commit change _) => Settled s.session change
    | _ => True
  | .call .. | .fail .. | .process _ => True

section

variable {target : Target} {log : List BpRequest} {request : BpRequest}

theorem lastOf_concat_self : lastOf request.target (log ++ [request]) = some request := by
  simp [lastOf, List.filter_append]

theorem lastOf_concat_of_ne (ne : request.target ≠ target) :
    lastOf target (log ++ [request]) = lastOf target log := by
  simp [lastOf, List.filter_append, ne]

/-- The requests about a target that the adapter has not taken yet. -/
def onWire (s : Parties) (target : Target) : List (Nat × BpRequest) :=
  s.wire.filter fun e => e.2.target = target

end

/-- Where the task that holds a list stands. -/
inductive Stage (s : Parties) (target : Target) (t : Nat) : BreakpointPc → Prop where
  | sending {change : Change} (silent : onWire s target = []) (synced : Synced s target)
      (unanswered : s.answers t = none) :
      Stage s target t (.sending change (change.proposed s.session))
  | queued {change : Change} (queue : onWire s target = [(t, change.proposed s.session)])
      (synced : Synced s target) (unanswered : s.answers t = none) :
      Stage s target t (.awaiting change (change.proposed s.session))
  | answered {change : Change} {results : List BreakpointResult} (silent : onWire s target = [])
      (answer : s.answers t = some (.ok results))
      (enough : results.length = (change.proposed s.session).size)
      (last : lastOf target s.processed = some (change.proposed s.session)) :
      Stage s target t (.awaiting change (change.proposed s.session))
  | committing {change : Change} {bp : Option BreakpointResult} (silent : onWire s target = [])
      (last : lastOf target s.processed = some (change.proposed s.session)) :
      Stage s target t (.commit change bp)

/-- A list is held by one task, or it is free and the adapter has it. -/
inductive Status (s : Parties) (target : Target) : Prop where
  | free (none : ∀ t pc, s.tasks t = some pc → holds target pc = false)
      (silent : onWire s target = []) (synced : Synced s target)
  | held {t : Nat} {pc : BreakpointPc} (here : s.tasks t = some pc)
      (mine : holds target pc = true)
      (only : ∀ t' pc', s.tasks t' = some pc' → holds target pc' = true → t' = t)
      (stage : Stage s target t pc)

/-- The task has sent its request. -/
def sent : BreakpointPc → Bool
  | .awaiting .. | .commit .. | .record .. | .done _ => true
  | _ => false

structure Orderly (s : Parties) : Prop where
  status : ∀ target, Status s target
  typed : Typed s.session
  asked : ∀ t, s.answers t ≠ none → ∃ pc, s.tasks t = some pc ∧ sent pc = true

section

variable {s s' : Parties} {target : Target}

theorem Synced.congr (synced : Synced s target)
    (log : lastOf target s'.processed = lastOf target s.processed)
    (list : current s'.session target = current s.session target) : Synced s' target := by
  intro request last
  rw [log] at last
  rw [list]
  exact synced request last

private theorem Stage.congr {t : Nat} {pc : BreakpointPc} (stage : Stage s target t pc)
    (mine : holds target pc = true) (answers : s'.answers t = s.answers t)
    (wire : onWire s' target = onWire s target)
    (log : lastOf target s'.processed = lastOf target s.processed)
    (list : current s'.session target = current s.session target) : Stage s' target t pc := by
  have same : ∀ change : Change, change.target = target →
      change.proposed s'.session = change.proposed s.session := by
    rintro change rfl
    exact proposed_congr list
  cases stage with
  | @sending change silent synced unanswered =>
    have next := @Stage.sending s' target t change (wire.trans silent) (synced.congr log list)
      (answers.trans unanswered)
    rwa [same change (of_decide_eq_true mine)] at next
  | @queued change queue synced unanswered =>
    have eq := same change (of_decide_eq_true mine)
    have next := @Stage.queued s' target t change (by rw [wire, queue, eq])
      (synced.congr log list) (answers.trans unanswered)
    rwa [eq] at next
  | @answered change results silent answer enough last =>
    have eq := same change (of_decide_eq_true mine)
    have next := @Stage.answered s' target t change results (wire.trans silent)
      (answers.trans answer) (by rw [eq, enough]) (by rw [log, last, eq])
    rwa [eq] at next
  | @committing change bp silent last =>
    exact .committing (wire.trans silent) (by rw [log, last, same change (of_decide_eq_true mine)])

/-- A list is not concerned by what does not touch its holder, its requests and itself. -/
theorem Status.frame (status : Status s target)
    (tasks : ∀ t pc, holds target pc = true → (s'.tasks t = some pc ↔ s.tasks t = some pc))
    (answers : ∀ t pc, s.tasks t = some pc → holds target pc = true → s'.answers t = s.answers t)
    (wire : onWire s' target = onWire s target)
    (log : lastOf target s'.processed = lastOf target s.processed)
    (list : current s'.session target = current s.session target) : Status s' target := by
  cases status with
  | free none silent synced =>
    refine .free (fun t pc at_ => ?_) (wire.trans silent) (synced.congr log list)
    rw [← Bool.not_eq_true]
    intro mine
    rw [none t pc ((tasks t pc mine).mp at_)] at mine
    cases mine
  | held here mine only stage =>
    refine .held ((tasks _ _ mine).mpr here) mine (fun t' pc' at_ mine' => ?_)
      (stage.congr mine (answers _ _ here mine) wire log list)
    exact only t' pc' ((tasks t' pc' mine').mp at_) mine'

end

/-! Steps. -/

section

variable {s s' : Parties} {t : Nat} {pc pc' : BreakpointPc} {m : SessionManager} {target : Target}
  {connected : Bool} {answer : Option Answer}

/-- Neither at such a point nor at the next is a list held. -/
private def aside : BreakpointPc → Bool
  | .propose _ | .sending .. | .awaiting .. | .commit .. => false
  | _ => true

private theorem aside_next (is_aside : aside pc = true)
    (moved : pc.next m connected answer = some pc') :
    holds target pc = false ∧ holds target pc' = false := by
  cases pc with
  | checkState | change | checkIdle | currentBackend =>
    simp only [BreakpointPc.next] at moved
    split at moved <;> obtain rfl := Option.some.inj moved <;> exact ⟨rfl, rfl⟩
  | pend | record =>
    obtain rfl := Option.some.inj moved
    exact ⟨rfl, rfl⟩
  | done => cases moved
  | propose | sending | awaiting | commit => cases is_aside

private theorem sent_next (there : sent pc = true)
    (moved : pc.next m connected answer = some pc') : sent pc' = true := by
  cases pc with
  | awaiting =>
    obtain ⟨result, -, rfl⟩ := Option.map_eq_some_iff.mp moved
    cases result with
    | error => rfl
    | ok =>
      simp only
      split <;> rfl
  | commit =>
    simp only [BreakpointPc.next] at moved
    split at moved <;> obtain rfl := Option.some.inj moved <;> rfl
  | record =>
    obtain rfl := Option.some.inj moved
    rfl
  | done => cases moved
  | _ => cases there

/-- Only a commit touches the active lists. -/
private theorem current_write (uncommitted : ∀ change bp, pc ≠ .commit change bp) :
    current (pc.write m) target = current m target := by
  cases pc with
  | pend change =>
    rw [write_pend]
    cases change <;> cases target <;> rfl
  | record change bp => rw [write_record, current_record]
  | commit change bp => exact absurd rfl (uncommitted change bp)
  | _ => rfl

private theorem update_iff (here : s.tasks t = some pc) (before : holds target pc = false)
    (after : holds target pc' = false) (t' : Nat) (p : BreakpointPc)
    (mine : holds target p = true) :
    Function.update s.tasks t (some pc') t' = some p ↔ s.tasks t' = some p := by
  by_cases same : t' = t
  · subst same
    rw [Function.update_self, here]
    constructor
    · intro eq
      obtain rfl := Option.some.inj eq
      rw [after] at mine
      cases mine
    · intro eq
      obtain rfl := Option.some.inj eq
      rw [before] at mine
      cases mine
  · rw [Function.update_of_ne same]

private theorem goOn_self : (s.goOn t pc pc').tasks t = some pc' := Function.update_self ..

private theorem goOn_other {t' : Nat} (ne : t' ≠ t) : (s.goOn t pc pc').tasks t' = s.tasks t' :=
  Function.update_of_ne ne ..

private theorem onWire_goOn (others : ∀ request ∈ pc.written, request.target ≠ target) :
    onWire (s.goOn t pc pc') target = onWire s target := by
  have none : (pc.written.map fun request => (t, request)).filter
      (fun e => e.2.target = target) = [] := by
    refine List.filter_eq_nil_iff.mpr fun e mem => ?_
    obtain ⟨request, written, rfl⟩ := List.mem_map.mp mem
    simpa using others request written
  simp only [onWire, Parties.goOn, List.filter_append, none, List.append_nil]

/-- A step of a task, for a list that it does not hold. -/
private theorem Status.pass (status : Status s target) (here : s.tasks t = some pc)
    (before : holds target pc = false) (after : holds target pc' = false)
    (others : ∀ request ∈ pc.written, request.target ≠ target)
    (list : current (pc.write s.session) target = current s.session target) :
    Status (s.goOn t pc pc') target :=
  status.frame (update_iff here before after) (fun _ _ _ _ => rfl) (onWire_goOn others) rfl list

/-- A step of the task that holds a list, after which it still does. -/
private theorem Status.keep (only : ∀ t' p, s.tasks t' = some p → holds target p = true → t' = t)
    (mine : holds target pc' = true) (stage : Stage (s.goOn t pc pc') target t pc') :
    Status (s.goOn t pc pc') target := by
  refine .held goOn_self mine (fun t' p at_ holds => ?_) stage
  by_cases same : t' = t
  · exact same
  · exact only t' p ((goOn_other same).symm.trans at_) holds

/-- The holder of a list lets it go. -/
private theorem Status.release (here : s.tasks t = some pc)
    (only : ∀ t' p, s.tasks t' = some p → holds target p = true → t' = t)
    (after : holds target pc' = false) (silent : onWire (s.goOn t pc pc') target = [])
    (synced : Synced (s.goOn t pc pc') target) : Status (s.goOn t pc pc') target := by
  refine .free (fun t' p at_ => ?_) silent synced
  by_cases same : t' = t
  · subst same
    obtain rfl := Option.some.inj (goOn_self.symm.trans at_)
    exact after
  · rw [← Bool.not_eq_true]
    exact fun mine => same (only t' p ((goOn_other same).symm.trans at_) mine)

/-- A result for each breakpoint is enough to go on with. -/
private theorem result_ok {change : Change} {results : List BreakpointResult}
    (enough : results.length = (change.proposed m).size) :
    ∃ bp, change.result results = .ok bp := by
  cases change with
  | addSource file line condition =>
    have some : results ≠ [] := by
      rintro rfl
      simp [Change.proposed, BpRequest.size] at enough
    obtain ⟨bp, last⟩ := Option.isSome_iff_exists.mp (List.getLast?_isSome.mpr some)
    simp only [Change.result, matchedResult, last]
    cases results.find? fun bp => bp.line = line with
    | none => exact ⟨_, rfl⟩
    | some found => exact ⟨_, rfl⟩
  | addFunction | remove => exact ⟨_, rfl⟩

/-- What a commit does to the lists, when it is settled. -/
private theorem commit_settled {change : Change} {bp : Option BreakpointResult} (typed : Typed m)
    (settled : Settled m change) :
    current (BreakpointPc.write m (.commit change bp)) change.target = change.proposed m ∧
      ∀ other, other ≠ change.target →
        current (BreakpointPc.write m (.commit change bp)) other = current m other := by
  cases change with
  | addSource file line condition =>
    obtain ⟨m', commits, self, others, -⟩ := @Change.commits m (.addSource file line condition)
      trivial
    rw [write_commit commits]
    exact ⟨self, others⟩
  | addFunction name condition =>
    obtain ⟨m', commits, self, others, -⟩ := @Change.commits m (.addFunction name condition) trivial
    rw [write_commit commits]
    exact ⟨self, others⟩
  | remove id info =>
    simp only [Settled] at settled
    cases there : m.breakpointInfo id with
    | none =>
      rw [there] at settled
      have lookup : m.bpResponses.lookup id = none := there
      have fails : ∃ e, (Change.remove id info).commit m = .error e := by
        simp only [Change.commit, SessionManager.removeBreakpointById, lookup]
        exact ⟨_, rfl⟩
      obtain ⟨e, fails⟩ := fails
      rw [write_commit_error fails]
      exact ⟨settled.symm, fun _ _ => rfl⟩
    | some info' =>
      rw [there] at settled
      simp only [Prod.mk.injEq] at settled
      obtain ⟨ty, file, line, function⟩ := settled
      have sameTarget : (Change.remove id info').target = (Change.remove id info).target := by
        simp only [Change.target, ty, file]
      have sameList : (Change.remove id info').proposed m = (Change.remove id info).proposed m := by
        simp only [Change.proposed, remainingFunctionBreakpoints, remainingSourceBreakpoints, ty,
          file, line, function]
      obtain ⟨m', commits, self, others, -⟩ := @Change.commits m (.remove id info')
        ⟨there, typed id info' there⟩
      rw [show BreakpointPc.write m (.commit (.remove id info) bp) = m' from write_commit commits,
        ← sameTarget, ← sameList]
      exact ⟨self, others⟩

/-- The holder of a list, found at its point. -/
private theorem Status.holder (status : Status s target) (here : s.tasks t = some pc)
    (mine : holds target pc = true) :
    (∀ t' p, s.tasks t' = some p → holds target p = true → t' = t) ∧ Stage s target t pc := by
  cases status with
  | free none =>
    rw [none t pc here] at mine
    cases mine
  | @held t' pc' there _ only stage =>
    obtain rfl := only t pc here mine
    obtain rfl := Option.some.inj (there.symm.trans here)
    exact ⟨only, stage⟩

private theorem holds_eq {change : Change} (h : change.target = target) :
    decide (change.target = target) = true := decide_eq_true h

/-- A free list is read, and held from then on. -/
private theorem status_propose {change : Change} (orderly : Orderly s)
    (here : s.tasks t = some (.propose change))
    (alone : ∀ t' pc, s.tasks t' = some pc → holds change.target pc = false) :
    Status (s.goOn t (.propose change) (.sending change (change.proposed s.session))) target := by
  by_cases mine : change.target = target
  · subst mine
    have unanswered : s.answers t = none := by
      by_contra asked
      obtain ⟨pc, at_, was⟩ := orderly.asked t asked
      obtain rfl := Option.some.inj (at_.symm.trans here)
      cases was
    cases orderly.status change.target with
    | held there holding =>
      rw [alone _ _ there] at holding
      cases holding
    | free _ silent synced =>
      refine .keep (fun t' p at_ holding => ?_) (holds_eq rfl)
        (.sending ((onWire_goOn (by simp [BreakpointPc.written])).trans silent) synced unanswered)
      rw [alone t' p at_] at holding
      cases holding
  · exact (orderly.status target).pass here rfl (decide_eq_false mine)
      (by simp [BreakpointPc.written]) rfl

/-- The request is written. -/
private theorem status_sending {change : Change} {request : BpRequest} (orderly : Orderly s)
    (here : s.tasks t = some (.sending change request)) :
    Status (s.goOn t (.sending change request) (.awaiting change request)) target := by
  have held := (orderly.status change.target).holder here (holds_eq rfl)
  obtain ⟨only, stage⟩ := held
  cases stage with
  | sending silent synced unanswered =>
    by_cases mine : change.target = target
    · subst mine
      refine .keep only (holds_eq rfl) (.queued ?_ synced unanswered)
      have last : onWire (s.goOn t (.sending change (change.proposed s.session))
          (.awaiting change (change.proposed s.session))) change.target =
            onWire s change.target ++ [(t, change.proposed s.session)] := by
        simp [onWire, Parties.goOn, BreakpointPc.written, List.filter_append, proposed_target]
      rw [last, silent]
      rfl
    · exact (orderly.status target).pass here (decide_eq_false mine) (decide_eq_false mine)
        (by simpa [BreakpointPc.written, proposed_target] using mine) rfl

/-- The answer has come. -/
private theorem status_awaiting {change : Change} {request : BpRequest} (orderly : Orderly s)
    (here : s.tasks t = some (.awaiting change request))
    (moved : BreakpointPc.next s.session s.connected (s.answers t) (.awaiting change request) =
      some pc') : Status (s.goOn t (.awaiting change request) pc') target := by
  obtain ⟨only, stage⟩ := (orderly.status change.target).holder here (holds_eq rfl)
  cases stage with
  | queued _ _ unanswered =>
    rw [unanswered] at moved
    cases moved
  | @answered _ results silent answer enough last =>
    obtain ⟨bp, result⟩ := result_ok enough
    rw [answer] at moved
    simp only [BreakpointPc.next, Option.map_some, result] at moved
    obtain rfl := Option.some.inj moved
    by_cases mine : change.target = target
    · subst mine
      exact .keep only (holds_eq rfl)
        (.committing ((onWire_goOn (by simp [BreakpointPc.written])).trans silent) last)
    · exact (orderly.status target).pass here (decide_eq_false mine) (decide_eq_false mine)
        (by simp [BreakpointPc.written]) rfl

/-- The commit makes the list the one that the adapter has. -/
private theorem status_commit {change : Change} {bp : Option BreakpointResult} (orderly : Orderly s)
    (here : s.tasks t = some (.commit change bp)) (settled : Settled s.session change)
    (after : ∀ target, holds target pc' = false) :
    Status (s.goOn t (.commit change bp) pc') target := by
  obtain ⟨only, stage⟩ := (orderly.status change.target).holder here (holds_eq rfl)
  obtain ⟨self, others⟩ := @commit_settled s.session change bp orderly.typed settled
  cases stage with
  | committing silent last =>
    by_cases mine : change.target = target
    · subst mine
      refine .release here only (after _)
        ((onWire_goOn (by simp [BreakpointPc.written])).trans silent) fun request eq => ?_
      obtain rfl := Option.some.inj (last.symm.trans eq)
      exact self.symm
    · exact (orderly.status target).pass here (decide_eq_false mine) (after _)
        (by simp [BreakpointPc.written]) (others target (Ne.symm mine))

private theorem status_task (orderly : Orderly s) (here : s.tasks t = some pc)
    (exclusive : Exclusive s (.task t))
    (moved : pc.next s.session s.connected (s.answers t) = some pc') :
    Status (s.goOn t pc pc') target := by
  have pass : aside pc = true → pc.written = [] → (∀ change bp, pc ≠ .commit change bp) →
      Status (s.goOn t pc pc') target := fun is_aside silent uncommitted => by
    obtain ⟨before, after⟩ := @aside_next _ _ _ target _ _ is_aside moved
    exact (orderly.status target).pass here before after (by simp [silent])
      (current_write uncommitted)
  cases pc with
  | propose change =>
    obtain rfl := Option.some.inj moved
    simp only [Exclusive, here] at exclusive
    exact status_propose orderly here exclusive
  | sending change request =>
    obtain rfl := Option.some.inj moved
    exact status_sending orderly here
  | awaiting change request => exact status_awaiting orderly here moved
  | commit change bp =>
    simp only [Exclusive, here] at exclusive
    refine status_commit orderly here exclusive fun target => ?_
    simp only [BreakpointPc.next] at moved
    split at moved <;> obtain rfl := Option.some.inj moved <;> rfl
  | _ => exact pass rfl rfl (by simp)

private theorem Orderly.task (orderly : Orderly s) (here : s.tasks t = some pc)
    (exclusive : Exclusive s (.task t))
    (moved : pc.next s.session s.connected (s.answers t) = some pc') :
    Orderly (s.goOn t pc pc') where
  status target := status_task orderly here exclusive moved
  typed := typed_write orderly.typed pc
  asked t' answered := by
    obtain ⟨pc₀, at_, was⟩ := orderly.asked t' answered
    by_cases same : t' = t
    · subst same
      obtain rfl := Option.some.inj (at_.symm.trans here)
      exact ⟨pc', goOn_self, sent_next was moved⟩
    · exact ⟨pc₀, (goOn_other same).trans at_, was⟩

private theorem Orderly.call {tool : BpTool} (orderly : Orderly s) (absent : s.tasks t = none) :
    Orderly (s.setTask t (.checkState tool)) where
  status target := by
    refine (orderly.status target).frame (fun t' p mine => ?_) (fun _ _ _ _ => rfl) rfl rfl rfl
    by_cases same : t' = t
    · subst same
      have called : (s.setTask t' (.checkState tool)).tasks t' = some (.checkState tool) :=
        Function.update_self ..
      rw [called, absent]
      constructor
      · intro eq
        obtain rfl := Option.some.inj eq
        cases mine
      · intro eq
        cases eq
    · rw [show (s.setTask t (.checkState tool)).tasks t' = s.tasks t' from
        Function.update_of_ne same ..]
  typed := orderly.typed
  asked t' answered := by
    obtain ⟨pc, at_, was⟩ := orderly.asked t' answered
    by_cases same : t' = t
    · subst same
      cases at_.symm.trans absent
    · exact ⟨pc, (Function.update_of_ne same ..).trans at_, was⟩

/-- The adapter takes a request: its list is the last that was processed. -/
private theorem Orderly.process {request : BpRequest} {rest : List (Nat × BpRequest)}
    {results : List BreakpointResult} (orderly : Orderly s) (wire : s.wire = (t, request) :: rest)
    (enough : results.length = request.size) : Orderly { s with
      wire := rest
      answers := Function.update s.answers t (some (.ok results))
      processed := s.processed ++ [request] } := by
  have first : onWire s request.target = (t, request) :: rest.filter fun e =>
      e.2.target = request.target := by
    simp [onWire, wire]
  cases orderly.status request.target with
  | free _ silent => cases first.symm.trans silent
  | @held t₀ pc here mine only stage =>
    cases stage with
    | sending silent | answered silent | committing silent => cases first.symm.trans silent
    | @queued change queue synced unanswered =>
      obtain ⟨head, none⟩ := List.cons.inj (first.symm.trans queue)
      obtain ⟨rfl, rfl⟩ := Prod.mk.inj head
      refine ⟨fun target => ?_, orderly.typed, fun t' answered => ?_⟩
      · by_cases same : (change.proposed s.session).target = target
        · subst same
          exact .held here mine only (.answered none (Function.update_self ..) enough
            lastOf_concat_self)
        · refine (orderly.status target).frame (fun _ _ _ => Iff.rfl) (fun t' p at_ holding => ?_)
            ?_ (lastOf_concat_of_ne same) rfl
          · refine Function.update_of_ne ?_ ..
            rintro rfl
            obtain rfl := Option.some.inj (at_.symm.trans here)
            exact same ((proposed_target change).trans (of_decide_eq_true holding))
          · simp [onWire, wire, same]
      · by_cases same : t' = t
        · subst same
          exact ⟨_, here, rfl⟩
        · exact orderly.asked t' fun none =>
            answered ((Function.update_of_ne same ..).trans none)

/-- One step keeps every list in order. -/
theorem Orderly.step {a : PartyAction} (orderly : Orderly s) (accepts : Accepts s a)
    (exclusive : Exclusive s a) (taken : s.step a = some s') : Orderly s' := by
  cases a with
  | call t tool =>
    simp only [Parties.step] at taken
    split at taken
    · rename_i absent
      obtain rfl := Option.some.inj taken
      exact orderly.call absent
    · cases taken
  | task t =>
    obtain ⟨pc, here, rest⟩ := Option.bind_eq_some_iff.mp taken
    obtain ⟨pc', moved, rfl⟩ := Option.map_eq_some_iff.mp rest
    exact orderly.task here exclusive moved
  | fail t e => exact accepts.elim
  | process answer =>
    cases wire : s.wire with
    | nil =>
      simp only [Parties.step, wire] at taken
      cases taken
    | cons e rest =>
      obtain ⟨t, request⟩ := e
      simp only [Accepts, wire] at accepts
      cases answer with
      | error e => exact accepts.elim
      | ok results =>
        simp only [Parties.step, wire] at taken
        obtain rfl := Option.some.inj taken
        exact orderly.process wire accepts

theorem Start.orderly (start : Start s) : Orderly s where
  status target := .free (fun t pc at_ => by cases (start.idle t).symm.trans at_)
    (by simp [onWire, start.silent]) (start.synced target)
  typed := start.typed
  asked t answered := absurd (start.unanswered t) answered

/-- Whatever the interleaving: when no call reads a list while another is between its read and
its commit of it, and removals commit what they proposed, then, once all calls have returned,
every active list is the last that the adapter processed. -/
theorem lists_kept {as : List PartyAction} (start : Start s)
    (run : Run Parties.step (fun s a => Accepts s a ∧ Exclusive s a) s as s')
    (returned : Returned s') : ∀ target, Synced s' target := by
  intro target
  have orderly := run.keeps (I := Orderly)
    (fun _ _ _ orderly allowed taken => orderly.step allowed.1 allowed.2 taken) start.orderly
  cases orderly.status target with
  | free _ _ synced => exact synced
  | held here mine =>
    obtain ⟨outcome, rfl⟩ := returned _ _ here
    cases mine

end

/-- A stopped session without breakpoints. -/
def stoppedSession : Parties where
  session := { SessionManager.new with state := .stopped }
  connected := true
  tasks _ := none
  answers _ := none
  wire := []
  processed := []

theorem start_stoppedSession : Start stoppedSession where
  stopped := rfl
  connected := rfl
  idle _ := rfl
  unanswered _ := rfl
  silent := rfl
  synced target request last := by cases last
  typed id info here := by cases here

/-- A call up to its write, and the rest of it. -/
def opening (t : Nat) (file : String) (line : Int) : List PartyAction :=
  .call t (.setBreakpoint (.ok file) (.ok line) "") :: List.replicate 5 (.task t)

def closing (t : Nat) : List PartyAction := List.replicate 3 (.task t)

/-- Two breakpoints, set at once. Both requests are answered before either call goes on. -/
def setTogether (file file' : String) : List PartyAction :=
  opening 0 file 3 ++ opening 1 file' 5 ++ [.task 0, .task 1, .process (.ok [⟨1, true, 3, ""⟩]),
    .process (.ok [⟨2, true, 5, ""⟩])] ++ closing 0 ++ closing 1

section

variable {s s' : Parties} {a : PartyAction}

private def FirstTwo (s : Parties) : Prop := ∀ t, 2 ≤ t → s.tasks t = none

private def callsFirstTwo : PartyAction → Bool
  | .call t _ => t < 2
  | _ => true

private theorem FirstTwo.step (two : FirstTwo s) (calls : callsFirstTwo a = true)
    (taken : s.step a = some s') : FirstTwo s' := by
  intro t above
  have other : ∀ t', s.tasks t' ≠ none → t ≠ t' := by
    rintro t' there rfl
    exact there (two t above)
  cases a with
  | call t' tool =>
    simp only [Parties.step] at taken
    split at taken
    · obtain rfl := Option.some.inj taken
      have below : t' < 2 := of_decide_eq_true calls
      exact (Function.update_of_ne (by omega) ..).trans (two t above)
    · cases taken
  | task t' =>
    obtain ⟨pc, here, rest⟩ := Option.bind_eq_some_iff.mp taken
    obtain ⟨pc', -, rfl⟩ := Option.map_eq_some_iff.mp rest
    exact (goOn_other (other t' (by simp [here]))).trans (two t above)
  | fail t' e =>
    obtain ⟨pc, here, rest⟩ := Option.bind_eq_some_iff.mp taken
    obtain ⟨pc', -, rfl⟩ := Option.map_eq_some_iff.mp rest
    exact (Function.update_of_ne (other t' (by simp [here])) ..).trans (two t above)
  | process answer =>
    simp only [Parties.step] at taken
    split at taken
    · cases taken
    · obtain rfl := Option.some.inj taken
      exact two t above

/-- The first two tasks have returned. -/
private def bothDone (s : Parties) : Bool :=
  match s.tasks 0, s.tasks 1 with
  | some (.done _), some (.done _) => true
  | _, _ => false

private theorem FirstTwo.returned (two : FirstTwo s) (done : bothDone s = true) : Returned s := by
  intro t pc at_
  unfold bothDone at done
  split at done
  · rename_i first second
    match t with
    | 0 => exact ⟨_, Option.some.inj (at_.symm.trans first)⟩
    | 1 => exact ⟨_, Option.some.inj (at_.symm.trans second)⟩
    | t + 2 => cases at_.symm.trans (two (t + 2) (Nat.le_add_left ..))
  · cases done

/-- No list is read under the other task, and nothing is removed. -/
private def apart (s : Parties) : PartyAction → Bool
  | .task t =>
    match s.tasks t with
    | some (.propose change) => (s.tasks (1 - t)).all fun pc => !holds change.target pc
    | some (.commit (.remove ..) _) => false
    | _ => true
  | a => callsFirstTwo a

private theorem FirstTwo.exclusive (two : FirstTwo s) (h : apart s a = true) : Exclusive s a := by
  have first : ∀ {t pc}, s.tasks t = some pc → t < 2 := by
    intro t pc here
    by_contra above
    cases here.symm.trans (two t (by omega))
  cases a with
  | task t =>
    simp only [Exclusive, apart] at h ⊢
    cases here : s.tasks t with
    | none => trivial
    | some pc =>
      rw [here] at h
      cases pc with
      | propose change =>
        intro t' pc there
        by_cases same : t' = t
        · subst same
          obtain rfl := Option.some.inj (there.symm.trans here)
          rfl
        · have low := first here
          have low' := first there
          obtain rfl : t' = 1 - t := by omega
          simp only [there] at h
          simpa using h
      | commit change bp =>
        cases change with
        | addSource | addFunction => trivial
        | remove => cases h
      | _ => trivial
  | _ => trivial

private theorem FirstTwo.start : FirstTwo stoppedSession := fun _ _ => rfl

/-- Two breakpoints in different files, set at once. -/
theorem lists_kept_two_files : ∃ s : Parties,
    s.processed = [.setBreakpoints "a.c" [⟨3, ""⟩], .setBreakpoints "b.c" [⟨5, ""⟩]] ∧
    Synced s (.file "a.c") ∧ Synced s (.file "b.c") := by
  have eval : (exec Parties.step
      (fun s a => (Accepts s a ∧ callsFirstTwo a = true) ∧ apart s a = true) stoppedSession
      (setTogether "a.c" "b.c")).map (fun s => (s.processed, bothDone s)) =
      some ([.setBreakpoints "a.c" [⟨3, ""⟩], .setBreakpoints "b.c" [⟨5, ""⟩]], true) := by
    decide +kernel
  obtain ⟨s, done, eq⟩ := Option.map_eq_some_iff.mp eval
  obtain ⟨processed, back⟩ := Prod.mk.inj eq
  have run := run_of_exec done
  have two := run.keeps (I := FirstTwo)
    (fun _ _ _ two allowed taken => two.step allowed.1.2 taken) FirstTwo.start
  have guarded := run.strengthen (I := FirstTwo)
    (fun _ _ _ two allowed taken => two.step allowed.1.2 taken)
    (fun s a _ two allowed _ => show Accepts s a ∧ Exclusive s a from
      ⟨allowed.1.1, two.exclusive allowed.2⟩) FirstTwo.start
  have synced := lists_kept start_stoppedSession guarded (two.returned back)
  exact ⟨s, processed, synced _, synced _⟩

/-- Two breakpoints in one file, set at once: each request has one of them, and the active list
both. -/
theorem update_lost : ¬ ∀ (s s' : Parties) (as : List PartyAction), Start s →
    Run Parties.step Accepts s as s' → Returned s' → ∀ target, Synced s' target := by
  intro kept
  have eval : (exec Parties.step (fun s a => Accepts s a ∧ callsFirstTwo a = true) stoppedSession
      (setTogether "a.c" "a.c")).map (fun s => (bothDone s, lastOf (.file "a.c") s.processed,
        current s.session (.file "a.c"))) =
      some (true, some (.setBreakpoints "a.c" [⟨5, ""⟩]),
        .setBreakpoints "a.c" [⟨3, ""⟩, ⟨5, ""⟩]) := by
    decide +kernel
  obtain ⟨s, done, eq⟩ := Option.map_eq_some_iff.mp eval
  simp only [Prod.mk.injEq] at eq
  obtain ⟨back, last, list⟩ := eq
  have run := run_of_exec done
  have two := run.keeps (I := FirstTwo)
    (fun _ _ _ two allowed taken => two.step allowed.2 taken) FirstTwo.start
  have same := kept _ s _ start_stoppedSession (run.weaken fun _ _ allowed => allowed.1)
    (two.returned back) _ _ last
  rw [list] at same
  exact absurd same (by decide)

end

/-! A call that runs alone. -/

/-- The task can be brought to its end: its outcome, the session then, and what the adapter has
processed. -/
def Ends (s : Parties) (t : Nat) (outcome : ToolOutcome) (m : SessionManager)
    (log : List BpRequest) : Prop :=
  ∃ as s', Run Parties.step anyStep s as s' ∧ s'.tasks t = some (.done outcome) ∧
    s'.session = m ∧ s'.processed = log

section

variable {s s' : Parties} {t : Nat} {pc pc' : BreakpointPc} {a : PartyAction}
  {outcome : ToolOutcome} {m : SessionManager} {log : List BpRequest} {change : Change}

private theorem Ends.done (here : s.tasks t = some (.done outcome)) :
    Ends s t outcome s.session s.processed :=
  ⟨[], s, .nil s, here, rfl, rfl⟩

private theorem Ends.step (taken : s.step a = some s') (ends : Ends s' t outcome m log) :
    Ends s t outcome m log := by
  obtain ⟨as, last, run, rest⟩ := ends
  exact ⟨a :: as, last, .cons trivial taken run, rest⟩

private theorem Ends.task (here : s.tasks t = some pc) (pc' : BreakpointPc)
    (moved : pc.next s.session s.connected (s.answers t) = some pc')
    (ends : Ends (s.goOn t pc pc') t outcome m log) : Ends s t outcome m log := by
  refine .step (a := .task t) ?_ ends
  simp only [Parties.step, here, Option.bind_some, moved, Option.map_some]

/-- The request of the list that was read has been answered. -/
private def answered (s : Parties) (t : Nat) (change : Change) (answer : Answer) : Parties :=
  let request := change.proposed s.session
  { (s.goOn t (.propose change) (.sending change request)).goOn t (.sending change request)
      (.awaiting change request) with
    wire := []
    answers := Function.update s.answers t (some answer)
    processed := s.processed ++ [request] }

private theorem ends_propose (answer : Answer) (silent : s.wire = [])
    (here : s.tasks t = some (.propose change))
    (ends : Ends (answered s t change answer) t outcome m log) : Ends s t outcome m log := by
  refine .task here _ rfl (.task goOn_self _ rfl (.step (a := .process answer) ?_ ends))
  simp only [Parties.step, Parties.goOn, BreakpointPc.written, silent, List.map_nil,
    List.append_nil, List.map_cons, List.nil_append]
  rfl

private theorem ends_awaiting {answer : Answer} (pc' : BreakpointPc)
    (moved : BreakpointPc.next s.session s.connected (some answer)
      (.awaiting change (change.proposed s.session)) = some pc')
    (ends : Ends ((answered s t change answer).goOn t
      (.awaiting change (change.proposed s.session)) pc') t outcome m log) :
    Ends (answered s t change answer) t outcome m log := by
  have there : (answered s t change answer).tasks t =
      some (.awaiting change (change.proposed s.session)) := Function.update_self ..
  refine .task there pc' ?_ ends
  rwa [show (answered s t change answer).answers t = some answer from Function.update_self ..]

private theorem ends_commit_error {bp : Option BreakpointResult} {e : String}
    (here : s.tasks t = some (.commit change bp)) (fails : change.commit s.session = .error e) :
    Ends s t (.error e) s.session s.processed := by
  have ends := Ends.done (@goOn_self s t (.commit change bp) (.done (.error e)))
  rw [show (s.goOn t (.commit change bp) (.done (.error e))).session = s.session from
    write_commit_error fails] at ends
  exact .task here _ (by simp only [BreakpointPc.next, fails]) ends

private theorem ends_commit {bp : Option BreakpointResult}
    (here : s.tasks t = some (.commit change bp)) (commits : change.commit s.session = .ok m) :
    Ends s t (change.response bp) (change.record m bp) s.processed := by
  refine .task here (.record change bp) (by simp only [BreakpointPc.next, commits])
    (.task goOn_self _ rfl ?_)
  have ends := Ends.done (@goOn_self (s.goOn t (.commit change bp) (.record change bp)) t
    (.record change bp) (.done (change.response bp)))
  rw [show ((s.goOn t (.commit change bp) (.record change bp)).goOn t (.record change bp)
    (.done (change.response bp))).session = change.record m bp by
      rw [← @write_commit s.session m change bp commits]
      exact write_record bp change] at ends
  exact ends

/-- From the look at the backend slot on. -/
private theorem ends_currentBackend {tool : BpTool} (answer : BpRequest → Answer)
    (silent : s.wire = []) (here : s.tasks t = some (.currentBackend change))
    (guard : s.session.checkState tool.allowed = .ok ()) (asks : tool.change s.session = .ok change)
    (active : s.session.state ≠ .idle) :
    let handled := tool.handle s.session (if s.connected then some answer else none)
    Ends s t handled.outcome handled.session (s.processed ++ handled.sent.toList) := by
  simp only [BpTool.handle, guard, asks, if_neg active]
  cases connected : s.connected with
  | false =>
    simp only [Bool.false_eq_true, if_false, Option.toList_none, List.append_nil]
    refine .task here (.done (.error change.target.opError.requestFailed)) ?_
      (.done goOn_self)
    simp only [BreakpointPc.next, connected, Bool.false_eq_true, if_false]
  | true =>
    simp only [if_true]
    refine .task here (.propose change)
      (by simp only [BreakpointPc.next, connected, if_true]) ?_
    have proposing : (s.goOn t (.currentBackend change) (.propose change)).wire = [] :=
      (List.append_nil _).trans silent
    refine ends_propose (answer (change.proposed s.session)) proposing goOn_self ?_
    cases replied : answer (change.proposed s.session) with
    | error e => exact ends_awaiting _ rfl (.done goOn_self)
    | ok results =>
      simp only
      cases matched : change.result results with
      | error e =>
        refine ends_awaiting (.done (.error e)) ?_ (.done goOn_self)
        simp only [BreakpointPc.next, Option.map_some, matched]
      | ok bp =>
        refine ends_awaiting (.commit change bp) ?_ ?_
        · simp only [BreakpointPc.next, Option.map_some, matched]
        · simp only
          cases commits : change.commit s.session with
          | error e => exact ends_commit_error goOn_self commits
          | ok m => exact ends_commit goOn_self commits

/-- An addition in an idle session, from the check of its arguments on. -/
private theorem ends_pend {tool : BpTool} (here : s.tasks t = some (.change tool))
    (idle : s.session.state = .idle) (guard : s.session.checkState tool.allowed = .ok ())
    (asks : tool.change s.session = .ok change) :
    Ends s t change.pendingResponse (change.pend s.session) s.processed := by
  have toCheck : BreakpointPc.next s.session s.connected (s.answers t) (.change tool) =
      some (.checkIdle change) := by
    simp only [BreakpointPc.next, asks]
    cases change with
    | addSource | addFunction => rfl
    | remove id info => exact absurd idle (not_idle_of_remove guard asks)
  refine .task here _ toCheck (.task goOn_self (.pend change) (congrArg some (if_pos idle))
    (.task goOn_self _ rfl ?_))
  rw [← write_pend]
  exact .done goOn_self

/-- An addition in an active session, from the look at its state on. -/
private theorem ends_checkIdle {tool : BpTool} (answer : BpRequest → Answer)
    (silent : s.wire = []) (here : s.tasks t = some (.checkIdle change))
    (guard : s.session.checkState tool.allowed = .ok ()) (asks : tool.change s.session = .ok change)
    (active : s.session.state ≠ .idle) :
    let handled := tool.handle s.session (if s.connected then some answer else none)
    Ends s t handled.outcome handled.session (s.processed ++ handled.sent.toList) :=
  .task here _ (congrArg some (if_neg active))
    (ends_currentBackend (s := s.goOn t (.checkIdle change) (.currentBackend change)) answer
      ((List.append_nil _).trans silent) goOn_self guard asks active)

/-- A call in an active session, from the check of its arguments on. -/
private theorem ends_active {tool : BpTool} (answer : BpRequest → Answer) (silent : s.wire = [])
    (here : s.tasks t = some (.change tool)) (guard : s.session.checkState tool.allowed = .ok ())
    (asks : tool.change s.session = .ok change) (active : s.session.state ≠ .idle) :
    let handled := tool.handle s.session (if s.connected then some answer else none)
    Ends s t handled.outcome handled.session (s.processed ++ handled.sent.toList) := by
  cases change with
  | addSource file line condition =>
    refine .task here (.checkIdle (.addSource file line condition))
      (by simp only [BreakpointPc.next, asks]) ?_
    exact ends_checkIdle
      (s := s.goOn t (.change tool) (.checkIdle (.addSource file line condition))) answer
      ((List.append_nil _).trans silent) goOn_self guard asks active
  | addFunction name condition =>
    refine .task here (.checkIdle (.addFunction name condition))
      (by simp only [BreakpointPc.next, asks]) ?_
    exact ends_checkIdle
      (s := s.goOn t (.change tool) (.checkIdle (.addFunction name condition))) answer
      ((List.append_nil _).trans silent) goOn_self guard asks active
  | remove id info =>
    refine .task here (.currentBackend (.remove id info))
      (by simp only [BreakpointPc.next, asks]) ?_
    exact ends_currentBackend (s := s.goOn t (.change tool) (.currentBackend (.remove id info)))
      answer ((List.append_nil _).trans silent) goOn_self guard asks active

/-- A call that runs alone, against an adapter that answers each request, comes to what `handle`
says. -/
theorem ends_alone (tool : BpTool) (answer : BpRequest → Answer) (silent : s.wire = [])
    (idle : s.tasks t = none) :
    let handled := tool.handle s.session (if s.connected then some answer else none)
    Ends s t handled.outcome handled.session (s.processed ++ handled.sent.toList) := by
  intro handled
  have called : s.step (.call t tool) = some (s.setTask t (.checkState tool)) := by
    simp only [Parties.step, if_pos idle]
  refine .step called ?_
  have here : (s.setTask t (.checkState tool)).tasks t = some (.checkState tool) :=
    Function.update_self ..
  cases guard : s.session.checkState tool.allowed with
  | error e =>
    have refused : handled = ⟨.error e, s.session, none⟩ := by
      simp only [handled, BpTool.handle, guard]
    rw [refused, Option.toList_none, List.append_nil]
    refine .task here (.done (.error e)) ?_ (.done goOn_self)
    change BreakpointPc.next s.session s.connected (s.answers t) _ = _
    simp only [BreakpointPc.next, guard]
  | ok _ =>
    refine .task here (.change tool) ?_ ?_
    · change BreakpointPc.next s.session s.connected (s.answers t) _ = _
      simp only [BreakpointPc.next, guard]
    · let asking := (s.setTask t (.checkState tool)).goOn t (.checkState tool) (.change tool)
      have quiet : asking.wire = [] := (List.append_nil _).trans silent
      change Ends asking t _ _ _
      have there : asking.tasks t = some (.change tool) := goOn_self
      cases asks : tool.change s.session with
      | error e =>
        have refused : handled = ⟨.error e, s.session, none⟩ := by
          simp only [handled, BpTool.handle, guard, asks]
        rw [refused, Option.toList_none, List.append_nil]
        refine .task there (.done (.error e)) ?_ (.done goOn_self)
        change BreakpointPc.next s.session s.connected (s.answers t) _ = _
        simp only [BreakpointPc.next, asks]
      | ok change =>
        by_cases unstarted : s.session.state = .idle
        · have pended : handled = ⟨change.pendingResponse, change.pend s.session, none⟩ := by
            simp only [handled, BpTool.handle, guard, asks, if_pos unstarted]
          rw [pended, Option.toList_none, List.append_nil]
          exact ends_pend there unstarted guard asks
        · exact ends_active answer quiet there guard asks unstarted

end

end LldbDebugMcp.Server.BreakpointLists
