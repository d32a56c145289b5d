/- module: LldbDebugMcp/Server/Pending
   source: crates/mcp-tools/src/handlers/{breakpoints,lifecycle}.rs,
     crates/mcp-session/src/manager.rs
   digest: Breakpoints that are set before the launch, and the launches that take them along. -/

import Mathlib.Algebra.Order.Group.Multiset
import LldbDebugMcp.Server.BreakpointMap

set_option autoImplicit false
set_option relaxedAutoImplicit false

namespace LldbDebugMcp.Server.Pending

open LldbDebugMcp.Core.Types
open LldbDebugMcp.Session.Manager
open LldbDebugMcp.Session.Operation
open LldbDebugMcp.Library.Transition
open LldbDebugMcp.Server.Contract
open LldbDebugMcp.Server.Handler
open LldbDebugMcp.Server.Lifecycle
open LldbDebugMcp.Server.Execution
open LldbDebugMcp.Server.System
open LldbDebugMcp.Server.Steps
open LldbDebugMcp.Server.Lldb
open LldbDebugMcp.Server.Breakpoints
open LldbDebugMcp.Server.BreakpointMap (tracks)

inductive Breakpoint where
  | source (file : String) (bp : SourceBp)
  | function (bp : FunctionBp)
  deriving DecidableEq

/-- The breakpoints of the lists that a flush returns and a spec carries. -/
def listed (files : List (String × List SourceBp)) (functions : List FunctionBp) :
    List Breakpoint :=
  files.flatMap (fun (file, bps) => bps.map (.source file)) ++ functions.map .function

def specBreakpoints (spec : LaunchSpec) : List Breakpoint :=
  listed spec.sourceBreakpoints spec.functionBreakpoints

/-- What a flush would take. -/
def pending (m : SessionManager) : List Breakpoint :=
  listed m.flushPendingBreakpoints.1.1 m.flushPendingBreakpoints.1.2

/-- The breakpoint that an addition asks for. -/
def asked : Change → Option Breakpoint
  | .addSource file line condition => some (.source file ⟨line, condition⟩)
  | .addFunction name condition => some (.function ⟨name, condition⟩)
  | .remove _ _ => none

/-! History: which breakpoints were acknowledged, and which launches took some along. -/

/-- The breakpoints that were acknowledged since the last disconnect; those that launches
flushed, by the launch, as long as it has not failed; and those that were acknowledged in a
session that was not idle any more, and not flushed since. -/
structure Ledger where
  acknowledged : Multiset Breakpoint
  carried : Multiset (Nat × Breakpoint)
  late : Multiset Breakpoint

/-- The step of a launch, or attach, in which its connect or its handshake fails. -/
def fails : Pc → Pc → Bool
  | .start (.connecting _), .start (.connectReset _)
  | .start (.starting _), .start (.cleanupClear _) => true
  | _, _ => false

/-- The point at which a launch or attach that has failed resets the session. -/
def clears : Pc → Bool
  | .start (.connectReset _) | .start (.cleanupReset _) => true
  | _ => false

/-- A launch on its way from its guard to its flush. -/
def toFlush : Pc → Bool
  | .start (.setConfiguring (.launch _)) | .start (.flushPending _) => true
  | _ => false

namespace Ledger

def new : Ledger := ⟨0, 0, 0⟩

/-- What the step of a task is to the ledger. -/
def moved (l : Ledger) (t : Nat) (pc pc' : Pc) : Ledger :=
  if fails pc pc' then { l with carried := l.carried.filter fun e => e.1 ≠ t }
  else if clears pc then { l with late := 0 }
  else
    match pc, pc' with
    | .start (.flushPending _), .start (.connecting (.launch spec)) =>
      { l with
        carried := l.carried + (specBreakpoints spec : Multiset Breakpoint).map (t, ·)
        late := 0 }
    | .disconnect .reset, _ => new
    | _, _ => l

/-- What the step of a breakpoint call is to the ledger. -/
def noted (l : Ledger) (state : State) : BreakpointPc → Ledger
  | .pend change =>
    match asked change with
    | none => l
    | some bp =>
      { l with
        acknowledged := bp ::ₘ l.acknowledged
        late := if state = .idle then l.late else bp ::ₘ l.late }
  | _ => l

end Ledger

/-- The server and its breakpoint calls. What the adapter answers a breakpoint call is part of
the action. -/
structure Watched (S : Seam) where
  server : ToolServer S
  setters : Nat → Option BreakpointPc
  ledger : Ledger

inductive WatchedAction (S : Seam) where
  | server (a : System.Action S)
  | set (t : Nat) (tool : BpTool)
  | setter (t : Nat) (answer : Option Answer)

section

variable {S : Seam}

namespace Watched

def new : Watched S := ⟨ToolServer.new, fun _ => none, Ledger.new⟩

/-- The ledger after a step of the server. -/
def ledgerAfter (s : Watched S) (a : System.Action S) (server : ToolServer S) : Ledger :=
  match a with
  | .task t _ =>
    match s.server.tasks t, server.tasks t with
    | some pc, some pc' => s.ledger.moved t pc pc'
    | _, _ => s.ledger
  | _ => s.ledger

def step (s : Watched S) : WatchedAction S → Option (Watched S)
  | .server a =>
    if tracks a then none
    else (s.server.step a).map fun server =>
      { s with server := server, ledger := s.ledgerAfter a server }
  | .set t tool =>
    match s.setters t with
    | none => some { s with setters := Function.update s.setters t (some (.checkState tool)) }
    | some _ => none
  | .setter t answer => (s.setters t).bind fun pc =>
    (pc.next s.server.session s.server.backend.isSome answer).map fun pc' =>
      { server := { s.server with session := pc.write s.server.session }
        setters := Function.update s.setters t (some pc')
        ledger := s.ledger.noted s.server.session.state pc }

end Watched

/-- Some launch is about to flush. -/
def Flushing (s : ToolServer S) : Prop := ∃ t pc, s.tasks t = some pc ∧ toFlush pc = true

/-- Every acknowledged breakpoint is pending, or a launch that has not failed has it in its
spec; and one that was acknowledged late and is pending can be used by a launch. -/
structure Kept (s : Watched S) : Prop where
  remembered : s.ledger.acknowledged ≤
    (pending s.server.session : Multiset Breakpoint) + s.ledger.carried.map Prod.snd
  usable : s.ledger.late ≠ 0 → Flushing s.server

/-- In this step no launch fails that carries breakpoints, no launch or attach that has failed
resets a session with pending ones, and none is made pending past the flush. -/
def Spares (s : Watched S) : WatchedAction S → Prop
  | .server (.task t choice) =>
    ∀ pc, s.server.tasks t = some pc →
      ((∃ s' pc', s.server.step (.task t choice) = some s' ∧ s'.tasks t = some pc' ∧
        fails pc pc' = true) → ∀ bp, (t, bp) ∉ s.ledger.carried) ∧
      (clears pc = true → pending s.server.session = [])
  | .server _ | .set .. => True
  | .setter t _ => ∀ change bp, s.setters t = some (.pend change) → asked change = some bp →
      s.server.session.state = .idle ∨ Flushing s.server

end

/-! The pending buffers. -/

section

variable {m m' : SessionManager}

/-- A push adds to the list of one file. -/
private theorem entries_pushSource (bps : AList (fun _ : String => List SourceBp)) (file : String)
    (bp : SourceBp) :
    ((SessionManager.pushSource bps file [bp]).entries.flatMap fun e =>
        e.2.map (Breakpoint.source e.1)).Perm
      (.source file bp :: bps.entries.flatMap fun e => e.2.map (Breakpoint.source e.1)) := by
  rw [SessionManager.pushSource, AList.entries_insert]
  by_cases there : file ∈ bps.entries.keys
  · obtain ⟨old, before, after, -, split, erased⟩ := List.exists_of_kerase there
    have here : bps.lookup file = some old := by
      refine AList.mem_lookup_iff.mpr ?_
      rw [split]
      exact List.mem_append_right _ (List.mem_cons_self ..)
    rw [here, Option.getD_some, erased, split]
    refine List.perm_iff_count.mpr fun x => ?_
    simp only [List.flatMap_cons, List.flatMap_append, List.map_append, List.map_cons, List.map_nil,
      List.count_append, List.count_cons, List.count_nil]
    omega
  · have absent : bps.lookup file = none := AList.lookup_eq_none.mpr there
    rw [absent, List.kerase_of_notMem_keys there]
    exact .refl _

/-- An addition to the buffers. -/
theorem pending_pend {change : Change} {bp : Breakpoint} (asks : asked change = some bp) :
    (pending (change.pend m) : Multiset Breakpoint) = bp ::ₘ (pending m : Multiset Breakpoint) := by
  rw [Multiset.cons_coe, Multiset.coe_eq_coe]
  cases change with
  | addSource file line condition =>
    cases asks
    have pushed := entries_pushSource m.pendingSourceBps file ⟨line, condition⟩
    simp only [pending, listed, SessionManager.flushPendingBreakpoints, Change.pend,
      SessionManager.addPendingSourceBreakpoint, List.flatMap_map]
    exact pushed.append_right _
  | addFunction name condition =>
    cases asks
    simp only [pending, listed, SessionManager.flushPendingBreakpoints, Change.pend,
      SessionManager.addPendingFunctionBreakpoint, List.map_append, List.map_cons, List.map_nil]
    rw [← List.append_assoc]
    exact List.perm_append_singleton _ _
  | remove => cases asks

private theorem pending_remove (id : Int) : pending (m.removeBreakpointById id).2 = pending m := by
  unfold SessionManager.removeBreakpointById
  split
  · rfl
  · split
    · split <;> rfl
    · split <;> rfl

/-- No other point of a breakpoint call touches the buffers. -/
private theorem pending_write {pc : BreakpointPc}
    (other : ∀ change bp, pc = .pend change → asked change ≠ some bp) :
    pending (pc.write m) = pending m := by
  cases pc with
  | pend change =>
    rw [write_pend]
    cases change with
    | addSource | addFunction => exact absurd rfl (other _ _ rfl)
    | remove => rfl
  | commit change bp =>
    cases change with
    | addSource | addFunction => rfl
    | remove id info => exact pending_remove id
  | record change bp =>
    rw [write_record]
    unfold Change.record
    split <;> rfl
  | _ => rfl

end

/-! The steps of a task, by what they are to the ledger. -/

section

variable {S : Seam} {s s' : ToolServer S} {t : Nat} {pc pc' : Pc}

/-- A step that leaves the ledger and the buffers alone. -/
structure Plain (m : SessionManager) (pc pc' : Pc) : Prop where
  holds : fails pc pc' = false
  keeps : clears pc = false
  ledger : ∀ (l : Ledger) t, l.moved t pc pc' = l
  pending : pending (applyOption m pc.operation) = pending m
  toFlush : toFlush pc = true → toFlush pc' = true

inductive Turn (m : SessionManager) (pc pc' : Pc) : Prop where
  | plain (plain : Plain m pc pc')
  | fails (fails : fails pc pc' = true) (keeps : clears pc = false)
      (silent : pc.operation = none) (past : toFlush pc = false)
  | clears (holds : fails pc pc' = false) (clears : clears pc = true)
      (operation : pc.operation = some .resetInner)
  | flushes {args : LaunchArgs} {spec : LaunchSpec} (at_ : pc = .start (.flushPending args))
      (next : pc' = .start (.connecting (.launch spec)))
  | disconnects (at_ : pc = .disconnect .reset)

private theorem pending_resume {m : SessionManager} (p : ResumePc) :
    pending (applyOption m (Pc.resume p).operation) = pending m := by
  cases p with
  | applyStopped | applyTerminated | applyExited =>
    simp only [Pc.operation, ResumePc.operation, applyOption, SessionOp.apply,
      SessionManager.setStateIfGeneration, SessionManager.terminateIfGeneration]
    split <;> rfl
  | _ => rfl

private theorem turn {conn : Option (Nat × S.Conn)} (move : TaskMoves s t pc pc' conn) :
    Turn s.session pc pc' := by
  cases move with
  | start move =>
    cases move with
    | flushed => exact .flushes rfl rfl
    | connectFailed | failed | cancelled => exact .fails rfl rfl rfl rfl
    | connectReset | cleanupReset => exact .clears rfl rfl rfl
    | @setPid _ _ target =>
      refine .plain ⟨rfl, rfl, fun _ _ => rfl, ?_, nofun⟩
      cases target <;> rfl
    | admitted | turnedAway => exact .plain ⟨rfl, rfl, fun _ _ => rfl, rfl, nofun⟩
    | configuredLaunch => exact .plain ⟨rfl, rfl, fun _ _ => rfl, rfl, fun _ => rfl⟩
    | _ => exact .plain ⟨rfl, rfl, fun _ _ => rfl, rfl, nofun⟩
  | disconnect move =>
    cases move with
    | reset => exact .disconnects rfl
    | _ => exact .plain ⟨rfl, rfl, fun _ _ => rfl, rfl, nofun⟩
  | @resume p => exact .plain ⟨rfl, rfl, fun _ _ => rfl, pending_resume p, nofun⟩
  | pause move => cases move <;> exact .plain ⟨rfl, rfl, fun _ _ => rfl, rfl, nofun⟩

/-- A launch takes all that is pending. -/
private theorem flush_takes {choice : Choice S} {args : LaunchArgs} {spec : LaunchSpec}
    (taken : s.step (.task t choice) = some s')
    (at_ : s.tasks t = some (.start (.flushPending args)))
    (next : s'.tasks t = some (.start (.connecting (.launch spec)))) :
    specBreakpoints spec = pending s.session := by
  obtain ⟨n, stepped, rfl⟩ := start_next taken at_
  cases choice <;> simp only [StartPc.next, reduceCtorEq] at stepped
  obtain rfl := Option.some.inj stepped
  cases (Function.update_self (f := s.tasks) t _).symm.trans next
  rfl

theorem flushing_step {a : System.Action S} (taken : s.step a = some s') (flushing : Flushing s)
    (still : ∀ t choice pc pc', a = .task t choice → s.tasks t = some pc →
      s'.tasks t = some pc' → toFlush pc = true → toFlush pc' = true) : Flushing s' := by
  obtain ⟨t, pc, here, ahead⟩ := flushing
  by_cases self : ∃ choice, a = .task t choice
  · obtain ⟨choice, rfl⟩ := self
    obtain ⟨pc', conn, -, rfl⟩ := task_step taken here
    have there := Function.update_self (f := s.tasks) t (some pc')
    exact ⟨t, pc', there, still t choice pc pc' rfl here there ahead⟩
  · exact ⟨t, pc, task_stays taken here fun choice h => self ⟨choice, h⟩, ahead⟩

end

/-! What a step posts in the ledger. -/

section

variable {S : Seam} {s s' : Watched S} {a : WatchedAction S}

inductive Posts (s : Watched S) (a : WatchedAction S) (s' : Watched S) : Prop where
  | none (ledger : s'.ledger = s.ledger)
      (kept : pending s'.server.session = pending s.server.session)
      (flushing : Flushing s.server → Flushing s'.server) (spares : Spares s a)
  | noted {bp : Breakpoint}
      (ledger : s'.ledger =
        { s.ledger with
          acknowledged := bp ::ₘ s.ledger.acknowledged
          late := if s.server.session.state = .idle then s.ledger.late
            else bp ::ₘ s.ledger.late })
      (added : (pending s'.server.session : Multiset Breakpoint) =
        bp ::ₘ (pending s.server.session : Multiset Breakpoint))
      (flushing : Flushing s'.server ↔ Flushing s.server)
      (spares : Spares s a ↔ s.server.session.state = .idle ∨ Flushing s.server)
  | failed {t : Nat}
      (ledger : s'.ledger =
        { s.ledger with carried := s.ledger.carried.filter fun e => e.1 ≠ t })
      (kept : pending s'.server.session = pending s.server.session)
      (flushing : Flushing s.server → Flushing s'.server)
      (spares : Spares s a ↔ ∀ bp, (t, bp) ∉ s.ledger.carried)
  | cleared (ledger : s'.ledger = { s.ledger with late := 0 })
      (emptied : pending s'.server.session = [])
      (spares : Spares s a ↔ pending s.server.session = [])
  | flushed {t : Nat}
      (ledger : s'.ledger =
        { s.ledger with
          carried := s.ledger.carried +
            (pending s.server.session : Multiset Breakpoint).map (t, ·)
          late := 0 })
      (emptied : pending s'.server.session = []) (spares : Spares s a)
  | disconnected (ledger : s'.ledger = Ledger.new) (emptied : pending s'.server.session = [])
      (spares : Spares s a)

private theorem posts_task {t : Nat} {choice : Choice S} {server : ToolServer S} {pc pc' : Pc}
    {conn : Option (Nat × S.Conn)} (here : s.server.tasks t = some pc)
    (move : TaskMoves s.server t pc pc' conn) (goes : server = s.server.goOn t pc pc' conn)
    (taken : s.server.step (.task t choice) = some server) :
    Posts s (.server (.task t choice))
      { s with server := server, ledger := s.ledger.moved t pc pc' } := by
  have there : server.tasks t = some pc' := goes ▸ Function.update_self _ _ _
  have session : server.session = applyOption s.server.session pc.operation := goes ▸ rfl
  have spares : Spares s (.server (.task t choice)) ↔
      (fails pc pc' = true → ∀ bp, (t, bp) ∉ s.ledger.carried) ∧
        (clears pc = true → pending s.server.session = []) := by
    constructor
    · intro spares
      exact ⟨fun failed => (spares pc here).1 ⟨server, pc', taken, there, failed⟩,
        (spares pc here).2⟩
    · rintro ⟨carries, empty⟩ pc₀ here'
      obtain rfl := Option.some.inj (here.symm.trans here')
      refine ⟨?_, empty⟩
      rintro ⟨server', pc₁, taken', there', failed⟩
      obtain rfl := Option.some.inj (taken.symm.trans taken')
      obtain rfl := Option.some.inj (there.symm.trans there')
      exact carries failed
  have still : (toFlush pc = true → toFlush pc' = true) → Flushing s.server → Flushing server := by
    intro ahead flushing
    refine flushing_step taken flushing fun t' choice' pc₀ pc₁ eq at_ at_' => ?_
    cases eq
    obtain rfl := Option.some.inj (here.symm.trans at_)
    obtain rfl := Option.some.inj (there.symm.trans at_')
    exact ahead
  cases turn move with
  | plain plain =>
    refine .none (plain.ledger _ _) ?_ (still plain.toFlush) (spares.mpr ⟨?_, ?_⟩)
    · rw [← plain.pending]
      exact congrArg pending session
    · rw [plain.holds]
      exact nofun
    · rw [plain.keeps]
      exact nofun
  | fails fails keeps silent past =>
    refine .failed (t := t) ?_ ?_ (still fun ahead => ?_) (spares.trans ⟨fun h => h.1 fails, ?_⟩)
    · simp only [Ledger.moved, fails, if_true]
    · rw [silent] at session
      exact congrArg pending session
    · rw [past] at ahead
      cases ahead
    · refine fun h => ⟨fun _ => h, ?_⟩
      rw [keeps]
      exact nofun
  | clears holds clears operation =>
    refine .cleared ?_ ?_ (spares.trans ⟨fun h => h.2 clears, fun h => ⟨?_, fun _ => h⟩⟩)
    · simp only [Ledger.moved, holds, clears, Bool.false_eq_true, if_false, if_true]
    · rw [operation] at session
      exact congrArg pending session
    · rw [holds]
      exact nofun
  | @flushes args spec at_ next =>
    subst at_ next
    refine .flushed (t := t) ?_ (congrArg pending session) (spares.mpr ⟨nofun, nofun⟩)
    rw [← flush_takes taken here there]
    rfl
  | disconnects at_ =>
    subst at_
    exact .disconnected rfl (congrArg pending session) (spares.mpr ⟨nofun, nofun⟩)

private theorem posts_server {b : System.Action S} {server : ToolServer S}
    (other : tracks b = false)
    (taken : s.server.step b = some server) :
    Posts s (.server b) { s with server := server, ledger := s.ledgerAfter b server } := by
  have still : (∀ t choice, b ≠ .task t choice) → Flushing s.server → Flushing server :=
    fun untasked flushing => flushing_step taken flushing fun t choice _ _ eq =>
      absurd eq (untasked t choice)
  cases moves_of_step taken with
  | call | cancelToken | conn => exact .none rfl rfl (still fun _ _ h => by cases h) trivial
  | @pump c which g k k' event =>
    refine .none rfl ?_ (still fun _ _ h => by cases h) trivial
    cases event with
    | output category text => rfl
    | terminated code =>
      simp only [pumpOperation, SessionOp.apply, SessionManager.terminateIfGeneration]
      split <;> rfl
  | bookkeeping op =>
    refine .none rfl ?_ (still fun _ _ h => by cases h) trivial
    cases op with
    | setFrameMapping | drainOutput => rfl
    | _ => cases other
  | @task t choice pc pc' conn here move =>
    have posted := posts_task here move rfl taken
    have there : (s.server.goOn t pc pc' conn).tasks t = some pc' := Function.update_self _ _ _
    have ledger : s.ledgerAfter (.task t choice) (s.server.goOn t pc pc' conn) =
        s.ledger.moved t pc pc' := by
      simp only [Watched.ledgerAfter, here, there]
    rw [ledger]
    exact posted

private theorem posts_setter {t : Nat} {answer : Option Answer} {pc pc' : BreakpointPc}
    (here : s.setters t = some pc) :
    Posts s (.setter t answer)
      { server := { s.server with session := pc.write s.server.session }
        setters := Function.update s.setters t (some pc')
        ledger := s.ledger.noted s.server.session.state pc } := by
  by_cases adds : ∃ change bp, pc = .pend change ∧ asked change = some bp
  · obtain ⟨change, bp, rfl, asks⟩ := adds
    refine @Posts.noted S s _ _ bp ?_ ?_ Iff.rfl ⟨fun spares => spares change bp here asks, ?_⟩
    · simp only [Ledger.noted, asks]
    · rw [write_pend]
      exact pending_pend asks
    · exact fun condition _ _ _ _ => condition
  · have other : ∀ change bp, pc = .pend change → asked change ≠ some bp :=
      fun change bp at_ asks => adds ⟨change, bp, at_, asks⟩
    refine .none ?_ (pending_write other) id fun change bp here' asks => ?_
    · cases pc with
      | pend change =>
        cases asks : asked change with
        | none => simp only [Ledger.noted, asks]
        | some bp => exact absurd asks (other change bp rfl)
      | _ => rfl
    · obtain rfl := Option.some.inj (here.symm.trans here')
      exact absurd asks (other change bp rfl)

theorem posts_of_step (taken : s.step a = some s') : Posts s a s' := by
  cases a with
  | server b =>
    simp only [Watched.step] at taken
    split at taken
    · cases taken
    · rename_i other
      obtain ⟨server, stepped, rfl⟩ := Option.map_eq_some_iff.mp taken
      exact posts_server (Bool.not_eq_true _ ▸ other) stepped
  | set t tool =>
    simp only [Watched.step] at taken
    split at taken
    · obtain rfl := Option.some.inj taken
      exact .none rfl rfl id trivial
    · cases taken
  | setter t answer =>
    obtain ⟨pc, here, rest⟩ := Option.bind_eq_some_iff.mp taken
    obtain ⟨pc', -, rfl⟩ := Option.map_eq_some_iff.mp rest
    exact posts_setter here

/-- Nothing is pending or carried that was not acknowledged. -/
def Accounted (s : Watched S) : Prop :=
  (pending s.server.session : Multiset Breakpoint) + s.ledger.carried.map Prod.snd ≤
    s.ledger.acknowledged

private theorem accounted_posts (accounted : Accounted s) (posts : Posts s a s') :
    Accounted s' := by
  unfold Accounted at accounted ⊢
  cases posts with
  | none ledger kept =>
    rw [ledger, kept]
    exact accounted
  | noted ledger added =>
    rw [ledger, added, Multiset.cons_add]
    exact Multiset.cons_le_cons _ accounted
  | failed ledger kept =>
    rw [ledger, kept]
    refine le_trans (add_le_add_right ?_ _) accounted
    exact Multiset.map_le_map (Multiset.filter_le _ _)
  | cleared ledger emptied =>
    rw [ledger, emptied]
    exact le_trans (add_le_add_left (Multiset.zero_le _) _) accounted
  | flushed ledger emptied =>
    rw [ledger, emptied]
    refine le_of_eq_of_le ?_ accounted
    simp [add_comm]
  | disconnected ledger emptied =>
    rw [ledger, emptied]
    exact le_refl _

/-- What is acknowledged is accounted for exactly, until something is lost. -/
private theorem balance (accounted : Accounted s) (kept : Kept s) : s.ledger.acknowledged =
    (pending s.server.session : Multiset Breakpoint) + s.ledger.carried.map Prod.snd :=
  le_antisymm kept.remembered accounted

/-- The breakpoints of a launch that fails are lost exactly if it has some. -/
private theorem loses_iff {P A : Multiset Breakpoint} {C : Multiset (Nat × Breakpoint)} {t : Nat}
    (balance : A = P + C.map Prod.snd) :
    A ≤ P + (C.filter fun e => e.1 ≠ t).map Prod.snd ↔ ∀ bp, (t, bp) ∉ C := by
  constructor
  · intro le bp mem
    have size := Multiset.card_le_card le
    rw [balance] at size
    simp only [Multiset.card_add, Multiset.card_map] at size
    have all := Multiset.eq_of_le_of_card_le (Multiset.filter_le (fun e => e.1 ≠ t) C)
      (Nat.le_of_add_le_add_left size)
    rw [← all] at mem
    exact (Multiset.mem_filter.mp mem).2 rfl
  · intro none
    have all : (C.filter fun e => e.1 ≠ t) = C := by
      refine Multiset.filter_eq_self.mpr fun e mem same => ?_
      exact none e.2 (same ▸ mem)
    rw [all, balance]

private theorem kept_posts (accounted : Accounted s) (kept : Kept s) (posts : Posts s a s') :
    Kept s' ↔ Spares s a := by
  have balance := balance accounted kept
  cases posts with
  | none ledger same flushing spares =>
    refine ⟨fun _ => spares, fun _ => ⟨?_, fun late => flushing (kept.usable ?_)⟩⟩
    · rw [ledger, same]
      exact kept.remembered
    · rwa [ledger] at late
  | @noted bp ledger added flushing spares =>
    rw [spares]
    have remembered : s'.ledger.acknowledged ≤
        (pending s'.server.session : Multiset Breakpoint) + s'.ledger.carried.map Prod.snd := by
      rw [ledger, added, Multiset.cons_add]
      exact Multiset.cons_le_cons _ kept.remembered
    have late : s'.ledger.late =
        if s.server.session.state = .idle then s.ledger.late else bp ::ₘ s.ledger.late := by
      rw [ledger]
    by_cases idle : s.server.session.state = .idle
    · rw [if_pos idle] at late
      exact ⟨fun _ => .inl idle, fun _ => ⟨remembered, fun some =>
        flushing.mpr (kept.usable (late ▸ some))⟩⟩
    · rw [if_neg idle] at late
      constructor
      · intro kept'
        exact .inr (flushing.mp (kept'.usable (late ▸ Multiset.cons_ne_zero)))
      · rintro (is | ahead)
        · exact absurd is idle
        · exact ⟨remembered, fun _ => flushing.mpr ahead⟩
  | failed ledger same flushing spares =>
    rw [spares, ← loses_iff balance]
    refine ⟨fun kept' => ?_, fun le => ⟨?_, fun late => flushing (kept.usable ?_)⟩⟩
    · have := kept'.remembered
      rwa [ledger, same] at this
    · rwa [ledger, same]
    · rwa [ledger] at late
  | cleared ledger emptied spares =>
    rw [spares]
    constructor
    · intro kept'
      have le := kept'.remembered
      rw [ledger, emptied, balance] at le
      have size := Multiset.card_le_card le
      simp only [Multiset.card_add, Multiset.coe_card, List.length_nil] at size
      exact List.length_eq_zero_iff.mp (by omega)
    · intro empty
      refine ⟨?_, fun late => ?_⟩
      · rw [ledger, emptied, balance, empty]
      · rw [ledger] at late
        exact absurd rfl late
  | flushed ledger emptied spares =>
    refine ⟨fun _ => spares, fun _ => ⟨?_, fun late => ?_⟩⟩
    · rw [ledger, emptied, balance]
      simp [add_comm]
    · rw [ledger] at late
      exact absurd rfl late
  | disconnected ledger emptied spares =>
    refine ⟨fun _ => spares, fun _ => ⟨?_, fun late => ?_⟩⟩
    · rw [ledger]
      exact Multiset.zero_le _
    · rw [ledger] at late
      exact absurd rfl late

/-- In every run no acknowledged breakpoint is dropped before the next disconnect, exactly if no
launch fails that carries some, no failed start resets a session in which some are pending, and
none is made pending past the flush. -/
theorem pending_kept_iff {as : List (WatchedAction S)}
    (run : Run Watched.step anyStep Watched.new as s) :
    Throughout Watched.step Kept Watched.new as s ↔ Run Watched.step Spares Watched.new as s :=
  run.throughout_iff (J := Accounted)
    (fun _ _ _ accounted _ taken => accounted_posts accounted (posts_of_step taken))
    (fun _ _ _ accounted kept _ taken => kept_posts accounted kept (posts_of_step taken))
    (le_refl _) ⟨le_refl _, fun late => absurd rfl late⟩

end

/-- A breakpoint that is set in the idle session. -/
def setPending : List (WatchedAction lldb) :=
  [.set 0 (.setBreakpoint (.ok "/loop.c") (.ok 6) ""), .setter 0 none, .setter 0 none,
    .setter 0 none, .setter 0 none]

/-- A launch whose connect fails. -/
def failedLaunch : List (System.Action lldb) :=
  [.call 0 (.start (.ok (.launch ⟨"/bin/demo", [], "", [], true⟩)))] ++ proceed 0 3 ++
    [.task 0 (.connectFailed .timeout)] ++ proceed 0 3

/-- The breakpoint of an acknowledged call is gone after a launch that failed to connect, and
no disconnect was made. -/
theorem pending_lost : ∃ (s : Watched lldb) (bp : Breakpoint), Reach Watched.step Watched.new s ∧
    bp ∈ s.ledger.acknowledged ∧ bp ∉ pending s.server.session ∧ s.ledger.carried = 0 := by
  have eval : ((exec Watched.step anyStep (Watched.new : Watched lldb)
      (setPending ++ failedLaunch.map .server)).map fun s =>
        (decide (s.ledger.acknowledged = {.source "/loop.c" ⟨6, ""⟩}),
          decide (pending s.server.session = []), decide (s.ledger.carried = 0))) =
      some (true, true, true) := by
    decide +kernel
  obtain ⟨s, there, eq⟩ := Option.map_eq_some_iff.mp eval
  simp only [Prod.mk.injEq, decide_eq_true_eq] at eq
  obtain ⟨acknowledged, none, carried⟩ := eq
  exact ⟨s, _, reach_of_exec there, acknowledged ▸ Multiset.mem_singleton_self _, by simp [none],
    carried⟩

/-- A launch that takes the breakpoint along. -/
def goodLaunch : List (System.Action lldb) :=
  launchCall 0 false ++ exchange 0 0 1 ++ write 0 0 ++
    [receive 0 (.event .initialized), poll 0 0] ++ write 0 0 ++
    [receive 0 (.response ⟨0, "response", 3, true, "setBreakpoints", "", none⟩), poll 0 0] ++
    exchange 0 0 4 ++ exchange 0 0 5 ++ launchRunning 0

/-- Nothing is lost, and nothing was acknowledged late. -/
private def balanced (s : Watched lldb) : Bool :=
  decide (s.ledger.acknowledged ≤
    (pending s.server.session : Multiset Breakpoint) + s.ledger.carried.map Prod.snd) &&
  decide (s.ledger.late = 0)

private theorem kept_of_balanced {s : Watched lldb} (h : balanced s = true) : Kept s := by
  simp only [balanced, Bool.and_eq_true, decide_eq_true_eq] at h
  exact ⟨h.1, fun late => absurd h.2 late⟩

theorem pending_kept_launch : ∃ s : Watched lldb,
    Run Watched.step anyStep Watched.new (setPending ++ goodLaunch.map .server) s ∧
    s.server.session.state = .running ∧
    s.ledger.carried = {(0, .source "/loop.c" ⟨6, ""⟩)} ∧
    Run Watched.step Spares Watched.new (setPending ++ goodLaunch.map .server) s := by
  have eval : ((exec Watched.step (fun s _ => balanced s = true) (Watched.new : Watched lldb)
      (setPending ++ goodLaunch.map .server)).map fun s =>
        (s.server.session.state, balanced s,
          decide (s.ledger.carried = {(0, .source "/loop.c" ⟨6, ""⟩)}))) =
      some (.running, true, true) := by
    decide +kernel
  obtain ⟨s, there, eq⟩ := Option.map_eq_some_iff.mp eval
  simp only [Prod.mk.injEq, decide_eq_true_eq] at eq
  obtain ⟨running, last, carried⟩ := eq
  have run := run_of_exec there
  have throughout := run.weaken fun s _ h => kept_of_balanced h
  exact ⟨s, run.any, running, carried,
    (pending_kept_iff run.any).mp ⟨throughout, kept_of_balanced last⟩⟩

end LldbDebugMcp.Server.Pending
