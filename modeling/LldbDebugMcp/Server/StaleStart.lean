/- module: LldbDebugMcp/Server/StaleStart
   source: crates/mcp-tools/src/handlers/lifecycle.rs
   digest: What a launch or attach does to the session that follows the one it was called in. -/

import LldbDebugMcp.Server.Lldb

set_option autoImplicit false
set_option relaxedAutoImplicit false

namespace LldbDebugMcp.Server.StaleStart

open LldbDebugMcp.Session.Output
open LldbDebugMcp.Session.Manager
open LldbDebugMcp.Session.Operation
open LldbDebugMcp.Library.Transition
open LldbDebugMcp.Server.Contract
open LldbDebugMcp.Server.Handler
open LldbDebugMcp.Server.Lifecycle
open LldbDebugMcp.Server.System
open LldbDebugMcp.Server.Steps
open LldbDebugMcp.Server.Lldb

/-- The handler is past its guard. -/
def passed : StartPc → Bool
  | .guardIdle _ => false
  | _ => true

/-- A drain has something to take out of the buffer. -/
def holds (b : OutputBuffer) : Bool := !b.entries.isEmpty || b.truncated

/-- There are breakpoints to be moved to the active lists. -/
def holdsPending (m : SessionManager) : Bool :=
  !m.pendingSourceBps.entries.isEmpty || !m.pendingFunctionBps.isEmpty

/-- The points whose step has an effect: a write of the session, whatever it writes, a stored
backend, a bound pump. What only takes something away counts when there is something: the flush of
the pending breakpoints, the drain of the output buffer and the clear of the slot. -/
def affects (m : SessionManager) (backend : Option Nat) : StartPc → Bool
  | .setConfiguring _ | .connectReset _ | .setBackend _ | .bindPump _ | .cleanupReset _
  | .setProgram .. | .setOutcome .. | .cacheStopped .. => true
  | .setPid _ _ target => target.isSome
  | .flushPending _ => holdsPending m
  | .connectResetOutput _ | .cleanupResetOutput _ => holds m.output
  | .connectClear _ | .cleanupClear _ => backend.isSome
  | .guardIdle _ | .connecting _ | .starting _ | .readPid .. => false

/-- The points after the reset of a failure path of the handler. -/
def leaving : StartPc → Bool
  | .connectResetOutput _ | .connectClear _ | .cleanupResetOutput _ => true
  | _ => false

variable {S : Seam} {s s' : ToolServer S} {a : Action S} {t : Nat}

/-- The step is one of the task, and has an effect. -/
def Affects (t : Nat) (s : ToolServer S) : Action S → Prop
  | .task t' _ =>
    t' = t ∧ ∃ pc, s.tasks t = some (.start pc) ∧ affects s.session s.backend pc = true
  | _ => False

/-- The buffer is empty where the task drains it last, and the slot where it clears it last. -/
def nothingLeft (s : ToolServer S) (t : Nat) : Bool :=
  (s.tasks t).all fun
    | .start (.connectResetOutput _) | .start (.cleanupResetOutput _) => !holds s.session.output
    | .start (.connectClear _) => s.backend.isNone
    | _ => true

/-- The task finds nothing left to take away in its step. -/
def NothingLeft (t : Nat) (s : ToolServer S) : Action S → Prop
  | .task t' _ => t' = t → nothingLeft s t = true
  | _ => True

instance : (a : Action S) → Decidable (NothingLeft t s a)
  | .task t' _ => inferInstanceAs (Decidable (t' = t → nothingLeft s t = true))
  | .call .. | .cancelToken _ | .conn .. | .pump .. | .bookkeeping _ => .isTrue trivial

private theorem drain_empty {b : OutputBuffer} (empty : holds b = false) : b.drain.2 = b := by
  simp only [holds, Bool.or_eq_false_iff, Bool.not_eq_false'] at empty
  unfold OutputBuffer.drain
  rw [if_pos empty]

private theorem flush_empty {m : SessionManager} (empty : holdsPending m = false) :
    m.flushPendingBreakpoints.2 = m := by
  simp only [holdsPending, Bool.or_eq_false_iff, Bool.not_eq_false', List.isEmpty_iff] at empty
  obtain ⟨sources, functions⟩ := empty
  have none : m.pendingSourceBps = ∅ := AList.ext sources
  simp only [SessionManager.flushPendingBreakpoints, sources, functions, List.map_nil,
    List.foldl_nil, List.append_nil]
  rw [← none, ← functions]

/-- A step of the task without effect changes neither the session nor the slot, and binds no
pump. -/
theorem unaffected {choice : Choice S} (start : ∃ pc, s.tasks t = some (.start pc))
    (quiet : ¬ Affects t s (.task t choice)) (taken : s.step (.task t choice) = some s') :
    s'.session = s.session ∧ s'.backend = s.backend ∧ s'.pumps = s.pumps := by
  obtain ⟨pc, here⟩ := start
  have silent : affects s.session s.backend pc = false := by
    rw [← Bool.not_eq_true]
    exact fun loud => quiet ⟨rfl, pc, here, loud⟩
  obtain ⟨pc', conn, -, rfl⟩ := task_step taken here
  change applyOption s.session pc.operation = s.session ∧ pc.slot t s.backend = s.backend ∧
    (if pc.binds then Function.update s.pumps t (some s.session.generation) else s.pumps) = s.pumps
  cases pc with
  | guardIdle | connecting | starting | readPid => exact ⟨rfl, rfl, rfl⟩
  | flushPending => exact ⟨flush_empty silent, rfl, rfl⟩
  | connectResetOutput | cleanupResetOutput =>
    refine ⟨?_, rfl, rfl⟩
    change { s.session with output := s.session.output.drain.2 } = s.session
    rw [drain_empty silent]
  | connectClear | cleanupClear =>
    exact ⟨rfl, (Option.not_isSome_iff_eq_none.mp (Bool.eq_false_iff.mp silent)).symm, rfl⟩
  | setPid plan outcome target =>
    cases target with
    | none => exact ⟨rfl, rfl, rfl⟩
    | some pid => cases silent
  | _ => cases silent

/-- The points from which a step with an effect lies ahead, whatever there is to take away. -/
def pending : StartPc → Bool
  | .guardIdle _ => false
  | pc => !leaving pc

/-- A step without effect leads from a pending point to another. -/
private theorem pending_kept {w : World S} {token : Bool} {pc : StartPc} {goto : Goto StartPc}
    {conn : Option (Nat × S.Conn)} (move : pc.Moves w t token goto conn)
    (ahead : pending pc = true) (quiet : affects w.session w.backend pc = false) :
    ∃ pc', goto = .at pc' ∧ pending pc' = true := by
  cases move with
  | turnedAway | badArgs | admitted | connectResetOutput | connectClear | cleanupResetOutput =>
    cases ahead
  | flushed | connected | connectFailed | succeeded | failed | cancelled | cleanupClear | setPid
  | readPid => exact ⟨_, rfl, rfl⟩
  | _ => cases quiet

private def AtPending (t : Nat) (s : ToolServer S) : Prop :=
  ∃ pc, s.tasks t = some (.start pc) ∧ pending pc = true

private theorem atPending_kept (ahead : AtPending t s) (quiet : ¬ Affects t s a)
    (taken : s.step a = some s') : AtPending t s' := by
  obtain ⟨pc, here, ahead⟩ := ahead
  by_cases self : ∃ choice, a = .task t choice
  · obtain ⟨choice, rfl⟩ := self
    obtain ⟨pc', conn, move, rfl⟩ := task_step taken here
    have hq : affects s.session s.backend pc = false := by
      rw [← Bool.not_eq_true]
      exact fun loud => quiet ⟨rfl, pc, here, loud⟩
    cases move with
    | start move =>
      obtain ⟨pc', rfl, ahead'⟩ := pending_kept move ahead hq
      exact ⟨pc', by simp [Pc.ofGoto], ahead'⟩
  · exact ⟨pc, task_stays taken here fun choice h => self ⟨choice, h⟩, ahead⟩

/-- The handler is past the reset of a failure path, or has returned. -/
private def Leaving (t : Nat) (s : ToolServer S) : Prop :=
  (∃ pc, s.tasks t = some (.start pc) ∧ leaving pc = true) ∨
    ∃ outcome, s.tasks t = some (.done outcome)

private theorem leaving_kept (leaves : Leaving t s) (taken : s.step a = some s') :
    Leaving t s' := by
  by_cases self : ∃ choice, a = .task t choice
  · obtain ⟨choice, rfl⟩ := self
    rcases leaves with ⟨pc, here, last⟩ | ⟨outcome, here⟩
    · obtain ⟨pc', conn, move, rfl⟩ := task_step taken here
      have next : (s.goOn t (.start pc) pc' conn).tasks t = some pc' := by
        rw [goOn_tasks, Function.update_self]
      cases move with
      | start move =>
        cases move with
        | connectResetOutput => exact .inl ⟨_, next, rfl⟩
        | connectClear | cleanupResetOutput => exact .inr ⟨_, next⟩
        | _ => cases last
    · obtain ⟨pc', conn, move, -⟩ := task_step taken here
      cases move
  · have other : ∀ choice, a ≠ .task t choice := fun choice h => self ⟨choice, h⟩
    rcases leaves with ⟨pc, here, last⟩ | ⟨outcome, here⟩
    · exact .inl ⟨pc, task_stays taken here other, last⟩
    · exact .inr ⟨outcome, task_stays taken here other⟩

private theorem leaving_quiet_iff (leaves : Leaving t s) (taken : s.step a = some s') :
    ¬ Affects t s a ↔ NothingLeft t s a := by
  cases a with
  | task t' choice =>
    by_cases self : t' = t
    · subst self
      rcases leaves with ⟨pc, here, last⟩ | ⟨outcome, here⟩
      · cases pc with
        | connectResetOutput | connectClear | cleanupResetOutput =>
          simp [Affects, NothingLeft, nothingLeft, here, affects]
        | _ => cases last
      · obtain ⟨pc', conn, move, -⟩ := task_step taken here
        cases move
    · simp [Affects, NothingLeft, self]
  | _ => simp [Affects, NothingLeft]

/-- A launch or attach that a disconnect's reset overtakes past its guard. By the time it
returns it has had an effect on what follows the reset, except from the last points of its failure
paths: a drain of the output buffer that finds it empty, and a clear that finds the slot empty. -/
theorem stale_start_quiet_iff {s₀ : ToolServer S} {d : Nat} {choice : Choice S} {pc : StartPc}
    {as : List (Action S)} (start : s.tasks t = some (.start pc)) (past : passed pc = true)
    (disconnect : s.tasks d = some (.disconnect .reset))
    (reset : s.step (.task d choice) = some s₀)
    (returned : ∃ outcome, s'.tasks t = some (.done outcome)) :
    Run ToolServer.step (fun s a => ¬ Affects t s a) s₀ as s' ↔
      leaving pc = true ∧ Run ToolServer.step (NothingLeft t) s₀ as s' := by
  have start₀ : s₀.tasks t = some (.start pc) := by
    refine task_stays reset start fun choice' h => ?_
    cases h
    cases start.symm.trans disconnect
  constructor
  · intro quiet
    have last : leaving pc = true := by
      by_contra other
      have ahead : AtPending t s₀ := by
        refine ⟨pc, start₀, ?_⟩
        cases pc with
        | guardIdle => cases past
        | connectResetOutput | connectClear | cleanupResetOutput => exact absurd rfl other
        | _ => rfl
      obtain ⟨pc', here, -⟩ := quiet.keeps (I := AtPending t)
        (fun _ _ _ ahead quiet taken => atPending_kept ahead quiet taken) ahead
      obtain ⟨outcome, done⟩ := returned
      cases here.symm.trans done
    refine ⟨last, ?_⟩
    exact quiet.strengthen (I := Leaving t) (fun _ _ _ leaves _ taken => leaving_kept leaves taken)
      (fun _ _ _ leaves quiet taken => (leaving_quiet_iff leaves taken).mp quiet)
      (.inl ⟨pc, start₀, last⟩)
  · rintro ⟨last, empty⟩
    exact empty.strengthen (I := Leaving t) (fun _ _ _ leaves _ taken => leaving_kept leaves taken)
      (fun _ _ _ leaves empty taken => (leaving_quiet_iff leaves taken).mpr empty)
      (.inl ⟨pc, start₀, last⟩)

/-- The task is a launch or attach past its guard. -/
def starting (s : ToolServer S) (t : Nat) : Bool :=
  (s.tasks t).any fun
    | .start pc => passed pc
    | _ => false

private theorem starting_eq (h : starting s t = true) :
    ∃ pc, s.tasks t = some (.start pc) ∧ passed pc = true := by
  obtain ⟨pc, here, h⟩ := (Option.any_eq_true _ _).mp h
  cases pc with
  | start pc => exact ⟨pc, here, h⟩
  | _ => cases h

/-- The task is past the reset of a failure path. -/
def atLeaving (s : ToolServer S) (t : Nat) : Bool :=
  (s.tasks t).any fun
    | .start pc => leaving pc
    | _ => false

private theorem atLeaving_iff {pc : StartPc} (here : s.tasks t = some (.start pc)) :
    atLeaving s t = leaving pc := by
  rw [atLeaving, here]
  rfl

/-- The first steps of a launch, up to its connect, and a disconnect about to reset. -/
def overtaken : List (Action lldb) :=
  [.call 0 (.start (.ok (.launch ⟨"/bin/demo", [], "", [], false⟩)))] ++ proceed 0 3 ++
    [.call 2 (.disconnect true)] ++ proceed 2 3

/-- A launch is connecting when a disconnect resets the session. A second launch connects,
and the first one then stores its own backend over the second's. -/
private theorem backend_overwritten :
    ∃ (s s₀ s₁ s' : ToolServer lldb) (pc : StartPc), Reach ToolServer.step ToolServer.new s ∧
      s.tasks 0 = some (.start pc) ∧ passed pc = true ∧
      s.tasks 2 = some (.disconnect .reset) ∧ s.step (.task 2 .go) = some s₀ ∧
      Run ToolServer.step anyStep s₀ (launchCall 1 false ++ [.task 0 (.connected none)]) s₁ ∧
      s₁.step (.task 0 .go) = some s' ∧ s₁.backend = some 1 ∧ s'.backend = some 0 := by
  have eval : ((exec ToolServer.step anyStep (ToolServer.new : ToolServer lldb)
      overtaken).bind fun s =>
      (s.step (.task 2 .go)).bind fun s₀ =>
      (exec ToolServer.step anyStep s₀ (launchCall 1 false ++ [.task 0 (.connected none)])).bind
        fun s₁ => (s₁.step (.task 0 .go)).map fun s' =>
          ((starting s 0, resetting s 2), s₁.backend, s'.backend)) =
      some ((true, true), some 1, some 0) := by
    decide +kernel
  obtain ⟨s, first, rest⟩ := Option.bind_eq_some_iff.mp eval
  obtain ⟨s₀, reset, rest⟩ := Option.bind_eq_some_iff.mp rest
  obtain ⟨s₁, second, rest⟩ := Option.bind_eq_some_iff.mp rest
  obtain ⟨s', last, eq⟩ := Option.map_eq_some_iff.mp rest
  obtain ⟨points, slots⟩ := Prod.mk.inj eq
  obtain ⟨pc, start, past⟩ := starting_eq (Prod.mk.inj points).1
  exact ⟨s, s₀, s₁, s', pc, reach_of_exec first, start, past,
    resetting_eq (Prod.mk.inj points).2, reset, run_of_exec second, last,
    (Prod.mk.inj slots).1, (Prod.mk.inj slots).2⟩

/-- An overtaken launch is not without effect on the session that follows. -/
theorem stale_start_not_quiet :
    ¬ ∀ (s s₀ s' : ToolServer lldb) (t d : Nat) (choice : Choice lldb) (pc : StartPc)
      (as : List (Action lldb)), Reach ToolServer.step ToolServer.new s →
      s.tasks t = some (.start pc) → passed pc = true →
      s.tasks d = some (.disconnect .reset) → s.step (.task d choice) = some s₀ →
      Run ToolServer.step anyStep s₀ as s' →
      Run ToolServer.step (fun s a => ¬ Affects t s a) s₀ as s' := by
  intro quiet
  obtain ⟨s, s₀, s₁, s', pc, reach, start, past, disconnect, reset, run, last, slot₁, slot'⟩ :=
    backend_overwritten
  have all := quiet s s₀ s' 0 2 .go pc _ reach start past disconnect reset
    (run.append (Run.single trivial last))
  obtain ⟨m, first, second⟩ := all.split
  obtain rfl := first.last_eq run
  cases second with
  | cons still taken _ =>
    obtain rfl := Option.some.inj (taken.symm.trans last)
    refine still ⟨rfl, ?_⟩
    cases moves_of_step last with
    | @task t choice pc pc' conn here move =>
      rw [goOn_backend] at slot'
      cases pc with
      | start pc =>
        refine ⟨pc, here, ?_⟩
        cases pc with
        | setBackend => rfl
        | connectClear | cleanupClear => cases slot'
        | _ => cases slot₁.symm.trans slot'
      | disconnect pc =>
        cases pc with
        | takeBackend => cases slot'
        | _ => cases slot₁.symm.trans slot'
      | _ => cases slot₁.symm.trans slot'

/-- The launch has failed to connect and has reset the session itself. -/
def overtakenLate : List (Action lldb) :=
  overtaken ++ .task 0 (.connectFailed .timeout) :: proceed 0 1

/-- A launch that is past its own reset when the disconnect's comes has no effect; one that is still
connecting has, although it fails in the same way. -/
theorem stale_start_quiet_iff_failed :
    (∃ s s₀ s' : ToolServer lldb, Reach ToolServer.step ToolServer.new s ∧
      s.step (.task 2 .go) = some s₀ ∧ (∃ outcome, s'.tasks 0 = some (.done outcome)) ∧
      Run ToolServer.step (fun s a => ¬ Affects 0 s a) s₀ (proceed 0 2) s') ∧
    ∃ s s₀ s' : ToolServer lldb, Reach ToolServer.step ToolServer.new s ∧
      s.step (.task 2 .go) = some s₀ ∧ (∃ outcome, s'.tasks 0 = some (.done outcome)) ∧
      Run ToolServer.step anyStep s₀ (.task 0 (.connectFailed .timeout) :: proceed 0 3) s' ∧
      ¬ Run ToolServer.step (fun s a => ¬ Affects 0 s a) s₀
        (.task 0 (.connectFailed .timeout) :: proceed 0 3) s' := by
  constructor
  · have eval : ((exec ToolServer.step anyStep (ToolServer.new : ToolServer lldb)
      overtakenLate).bind fun s =>
        (s.step (.task 2 .go)).bind fun s₀ =>
        (exec ToolServer.step (NothingLeft 0) s₀ (proceed 0 2)).map fun s' =>
          ((starting s 0, atLeaving s 0), resetting s 2, returned s' 0)) =
        some ((true, true), true, true) := by
      decide +kernel
    obtain ⟨s, first, rest⟩ := Option.bind_eq_some_iff.mp eval
    obtain ⟨s₀, reset, rest⟩ := Option.bind_eq_some_iff.mp rest
    obtain ⟨s', last, eq⟩ := Option.map_eq_some_iff.mp rest
    obtain ⟨points, eq⟩ := Prod.mk.inj eq
    obtain ⟨hstart, hleaving⟩ := Prod.mk.inj points
    obtain ⟨hreset, hreturned⟩ := Prod.mk.inj eq
    obtain ⟨pc, start, past⟩ := starting_eq hstart
    exact ⟨s, s₀, s', reach_of_exec first, reset, returned_eq hreturned,
      (stale_start_quiet_iff start past (resetting_eq hreset) reset (returned_eq hreturned)).mpr
        ⟨atLeaving_iff start ▸ hleaving, run_of_exec last⟩⟩
  · have eval : ((exec ToolServer.step anyStep (ToolServer.new : ToolServer lldb)
      overtaken).bind fun s =>
        (s.step (.task 2 .go)).bind fun s₀ =>
        (exec ToolServer.step anyStep s₀ (.task 0 (.connectFailed .timeout) :: proceed 0 3)).map
          fun s' => ((starting s 0, atLeaving s 0), resetting s 2, returned s' 0)) =
        some ((true, false), true, true) := by
      decide +kernel
    obtain ⟨s, first, rest⟩ := Option.bind_eq_some_iff.mp eval
    obtain ⟨s₀, reset, rest⟩ := Option.bind_eq_some_iff.mp rest
    obtain ⟨s', last, eq⟩ := Option.map_eq_some_iff.mp rest
    obtain ⟨points, eq⟩ := Prod.mk.inj eq
    obtain ⟨hstart, hleaving⟩ := Prod.mk.inj points
    obtain ⟨hreset, hreturned⟩ := Prod.mk.inj eq
    obtain ⟨pc, start, past⟩ := starting_eq hstart
    refine ⟨s, s₀, s', reach_of_exec first, reset, returned_eq hreturned, run_of_exec last,
      fun quiet => ?_⟩
    have early := ((stale_start_quiet_iff start past (resetting_eq hreset) reset
      (returned_eq hreturned)).mp quiet).1
    rw [atLeaving_iff start, early] at hleaving
    cases hleaving

end LldbDebugMcp.Server.StaleStart
