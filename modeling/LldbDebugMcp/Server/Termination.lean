/- module: LldbDebugMcp/Server/Termination
   source: crates/mcp-session/src/{manager,pump}.rs,
   crates/mcp-tools/src/handlers/{lifecycle,execution}.rs
   digest: When a terminated session stays terminated until it is reset. -/

import LldbDebugMcp.Server.Lldb

set_option autoImplicit false
set_option relaxedAutoImplicit false

namespace LldbDebugMcp.Server.Termination

open LldbDebugMcp.Session.Manager
open LldbDebugMcp.Session.Operation
open LldbDebugMcp.Library.Transition
open LldbDebugMcp.Server.Contract
open LldbDebugMcp.Server.Lifecycle
open LldbDebugMcp.Server.Execution
open LldbDebugMcp.Server.System
open LldbDebugMcp.Server.Steps
open LldbDebugMcp.Server.Lldb

/-- The points whose state write goes over a terminated session: those that do not look at
the generation, and the guarded write of a stop while its generation is the current one. -/
def revives (generation : UInt64) : Pc → Bool
  | .start (.setConfiguring _) => true
  | .start (.setOutcome _ (.stopped _) _) | .start (.setOutcome _ .running _) => true
  | .resume (.setRunning ..) | .resume (.revert ..) => true
  | .resume (.applyStopped g _) => g = generation
  | _ => false

variable {S : Seam} {s s' : ToolServer S} {a : Action S}

/-- The step is one of a task that stands at such a point. -/
def Revives (s : ToolServer S) : Action S → Prop
  | .task t _ => (s.tasks t).any (revives s.session.generation) = true
  | _ => False

instance : (a : Action S) → Decidable (Revives s a)
  | .task _ _ => inferInstanceAs (Decidable (_ = true))
  | .call .. | .cancelToken _ | .conn .. | .pump .. | .bookkeeping _ => .isFalse id

theorem revives_task {t : Nat} {choice : Handler.Choice S} {pc : Pc} (here : s.tasks t = some pc) :
    Revives s (.task t choice) ↔ revives s.session.generation pc = true := by
  simp only [Revives, here, Option.any_some]

/-- Which writes leave the state terminated. -/
private theorem applyOption_terminated {m : SessionManager} {pc : Pc}
    (ended : m.state = .terminated)
    (still : pc.operation ≠ some .resetInner) :
    (applyOption m pc.operation).state = .terminated ↔ revives m.generation pc = false := by
  cases pc with
  | start pc =>
    cases pc with
    | setOutcome plan outcome pid =>
      cases outcome <;>
        simp [Pc.operation, StartPc.operation, applyOption, SessionOp.apply, outcomeState,
          SessionManager.setState, revives]
    | setPid plan outcome target =>
      cases target <;>
        simp [Pc.operation, StartPc.operation, applyOption, SessionOp.apply,
          SessionManager.setPid, revives, ended]
    | connectReset e | cleanupReset e => exact absurd rfl still
    | _ =>
      simp [Pc.operation, StartPc.operation, applyOption, SessionOp.apply, revives, ended,
        SessionManager.setState, SessionManager.setProgram, SessionManager.setLastStopped,
        SessionManager.flushPendingBreakpoints, SessionManager.resetOutput]
  | disconnect pc =>
    cases pc with
    | reset => exact absurd rfl still
    | _ =>
      simp [Pc.operation, DisconnectPc.operation, applyOption, SessionOp.apply, revives, ended,
        SessionManager.resetOutput]
  | resume pc =>
    cases pc with
    | applyStopped g info =>
      by_cases current : m.generation = g
      · simp [Pc.operation, ResumePc.operation, applyOption, apply_state, SessionOp.target,
          revives, current]
      · simp [Pc.operation, ResumePc.operation, applyOption, apply_state, SessionOp.target,
          revives, current, ended, Ne.symm current]
    | applyExited g code | applyTerminated g =>
      by_cases current : m.generation = g <;>
        simp [Pc.operation, ResumePc.operation, applyOption, apply_state, SessionOp.target,
          revives, current, ended]
    | _ =>
      simp [Pc.operation, ResumePc.operation, applyOption, SessionOp.apply, revives, ended,
        SessionManager.setState, SessionManager.setLastStopped]
  | pause pc => simp [Pc.operation, applyOption, revives, ended]
  | done outcome => simp [Pc.operation, applyOption, revives, ended]

/-- One step: a terminated session that is not reset stays terminated unless a handler
writes over it. -/
theorem step_terminated (taken : s.step a = some s') (still : ¬ Resets s a)
    (ended : s.session.state = .terminated) :
    s'.session.state = .terminated ↔ ¬ Revives s a := by
  cases moves_of_step taken with
  | @task t choice pc pc' conn here move =>
    have still' : pc.operation ≠ some .resetInner := by
      rw [← taskOperation_of here]
      exact fun h => still (resets_task.mpr h)
    rw [goOn_session, applyOption_terminated ended still', revives_task here,
      Bool.not_eq_true]
  | call | cancelToken | conn => simpa [Revives] using ended
  | @pump c which g k k' event bound here pulled =>
    have kept : ((pumpOperation g event).apply s.session).state = .terminated := by
      rw [apply_state]
      cases event with
      | output category text => exact ended
      | terminated code =>
        by_cases current : s.session.generation = g <;>
          simp [pumpOperation, SessionOp.target, current, ended]
    simpa [Revives] using kept
  | bookkeeping op =>
    have kept : (op.apply s.session).state = .terminated :=
      (congrArg Core.state (bookkeeping_core s.session op)).trans ended
    simpa [Revives] using kept

/-- A terminated session is terminated in every state of a run without a reset exactly when
no step of the run is a handler's write over it. -/
theorem terminated_absorbing {as : List (Action S)}
    (run : Run ToolServer.step (fun s a => ¬ Resets s a) s as s')
    (ended : s.session.state = .terminated) :
    Throughout ToolServer.step (fun s => s.session.state = .terminated) s as s' ↔
      Run ToolServer.step (fun s a => ¬ Revives s a) s as s' :=
  run.throughout_iff (J := fun _ => True) (fun _ _ _ _ _ _ => trivial)
    (fun _ _ _ _ ended still taken => step_terminated taken still ended) trivial ended

/-- The points from which a handler can come to such a write, when no reset comes. -/
def writeAhead (generation : UInt64) : Pc → Bool
  | .start (.setConfiguring _) | .start (.flushPending _) | .start (.connecting _)
  | .start (.setBackend _) | .start (.bindPump _) | .start (.starting _) => true
  | .start (.setProgram _ outcome) | .start (.setPid _ outcome _) | .start (.readPid _ outcome)
  | .start (.setOutcome _ outcome _) => outcomeState outcome ≠ .terminated
  | .resume (.resolveThread _) | .resume (.currentBackend ..) | .resume (.snapshot ..)
  | .resume (.setRunning ..) | .resume (.resuming ..) | .resume (.revert ..) => true
  | .resume (.applyStopped g _) => g = generation
  | _ => false

private theorem revives_of_none {generation : UInt64} {pc : Pc}
    (none : writeAhead generation pc = false) : revives generation pc = false := by
  cases pc with
  | start pc =>
    cases pc with
    | setOutcome plan outcome pid => cases outcome <;> first | rfl | cases none
    | setConfiguring => cases none
    | _ => rfl
  | resume pc =>
    cases pc with
    | setRunning | revert => cases none
    | applyStopped => exact none
    | _ => rfl
  | disconnect | pause | done => rfl

/-- The guards turn away whoever comes to a terminated session. -/
private theorem none_ahead_next {t : Nat} {generation : UInt64} {pc pc' : Pc}
    {conn : Option (Nat × S.Conn)} (ended : s.session.state = .terminated)
    (move : TaskMoves s t pc pc' conn) (none : writeAhead generation pc = false) :
    writeAhead generation pc' = false := by
  cases move with
  | start move =>
    cases move with
    | admitted idle => cases ended.symm.trans idle
    | configuredLaunch | configuredAttach | flushed | connected | connectFailed | setBackend
    | bindPump | succeeded | failed | cancelled => cases none
    | setProgram | setPid | readPid => exact none
    | _ => rfl
  | resume move =>
    cases move with
    | admitted stopped => cases ended.symm.trans stopped
    | resolved | backend | snapshot | setRunning | replied => cases none
    | _ => rfl
  | disconnect move => cases move <;> rfl
  | pause move => cases move <;> rfl

/-- The session has ended, and no handler has such a write ahead of it. -/
structure Over (s : ToolServer S) : Prop where
  ended : s.session.state = .terminated
  none : ∀ t pc, s.tasks t = some pc → writeAhead s.session.generation pc = false

private theorem Over.step (finished : Over s) (still : ¬ Resets s a) (taken : s.step a = some s') :
    Over s' where
  ended := by
    refine (step_terminated taken still finished.ended).mpr fun revives => ?_
    cases a with
    | task t choice =>
      obtain ⟨pc, here, writes⟩ := (Option.any_eq_true _ _).mp revives
      cases (revives_of_none (finished.none t pc here)).symm.trans writes
    | _ => exact revives
  none t pc there := by
    rw [step_generation taken still]
    rcases tasks_cases taken there with old | ⟨tool, -, rfl⟩ | ⟨choice, pc₀, conn, -, here, move, -⟩
    · exact finished.none t pc old
    · cases tool <;> rfl
    · exact none_ahead_next finished.ended move (finished.none t pc₀ here)

/-- When no handler has such a write ahead of it at the end of a session, the session stays
terminated up to its reset. -/
theorem stays_terminated {as : List (Action S)} (finished : Over s)
    (run : Run ToolServer.step (fun s a => ¬ Resets s a) s as s') :
    Throughout ToolServer.step (fun s => s.session.state = .terminated) s as s' :=
  ⟨run.strengthen (I := Over) (fun _ _ _ finished still taken => finished.step still taken)
    (fun _ _ _ finished _ _ => finished.ended) finished,
    (run.keeps (I := Over) (fun _ _ _ finished still taken => finished.step still taken)
      finished).ended⟩

/-- The adapter ends the session before it answers the launch request: the pump records the
end, and the final write of the launch then sets the state running. -/
private theorem launch_after_end :
    ∃ s s' : ToolServer lldb, Reach ToolServer.step ToolServer.new s ∧
      s.session.state = .terminated ∧
      Run ToolServer.step (fun s a => ¬ Resets s a) s ([.conn 0 .proceed] ++ launchRunning 0) s' ∧
      s'.session.state = .running := by
  have eval : ((exec ToolServer.step anyStep (ToolServer.new : ToolServer lldb)
      (launchCall 0 false ++ handshake 0 false ++
        [receive 0 terminatedEvent, .pump 0 .terminated])).bind fun s =>
      (exec ToolServer.step (fun s a => ¬ Resets s a) s
        ([.conn 0 .proceed] ++ launchRunning 0)).map fun s' =>
          (s.session.state, s'.session.state)) = some (.terminated, .running) := by
    decide +kernel
  obtain ⟨s, first, rest⟩ := Option.bind_eq_some_iff.mp eval
  obtain ⟨s', second, eq⟩ := Option.map_eq_some_iff.mp rest
  exact ⟨s, s', reach_of_exec first, congrArg Prod.fst eq, run_of_exec second,
    congrArg Prod.snd eq⟩

/-- Terminated is not absorbing within a session. -/
theorem terminated_not_absorbing :
    ¬ ∀ (s s' : ToolServer lldb) (as : List (Action lldb)), Reach ToolServer.step ToolServer.new s →
      s.session.state = .terminated → Run ToolServer.step (fun s a => ¬ Resets s a) s as s' →
      s'.session.state = .terminated := by
  intro absorbing
  obtain ⟨s, s', reach, ended, run, revived⟩ := launch_after_end
  cases (absorbing s s' _ reach ended run).symm.trans revived

/-- A continue that comes after the end. -/
def continueAfterEnd : List (Action lldb) :=
  [.conn 0 .proceed, .call 1 (.resume ⟨.cont, .ok none, none⟩), .task 1 .go]

/-- A session that ends once its launch has returned stays terminated, and turns a continue away;
one that ends before that does not. -/
theorem terminated_absorbing_continue :
    (∃ s s' : ToolServer lldb, Reach ToolServer.step ToolServer.new s ∧
      Throughout ToolServer.step (fun s => s.session.state = .terminated) s continueAfterEnd s') ∧
    ∃ s s' : ToolServer lldb, Reach ToolServer.step ToolServer.new s ∧
      s.session.state = .terminated ∧
      ¬ Run ToolServer.step (fun s a => ¬ Revives s a) s ([.conn 0 .proceed] ++ launchRunning 0)
        s' := by
  constructor
  · have eval : ((exec ToolServer.step anyStep (ToolServer.new : ToolServer lldb)
        (launchCall 0 false ++ handshake 0 false ++ launchRunning 0 ++
          [receive 0 terminatedEvent, .pump 0 .terminated])).bind fun s =>
        (exec ToolServer.step (fun s a => ¬ Resets s a ∧ ¬ Revives s a) s continueAfterEnd).map
          fun _ => s.session.state) = some .terminated := by
      decide +kernel
    obtain ⟨s, first, rest⟩ := Option.bind_eq_some_iff.mp eval
    obtain ⟨s', second, ended⟩ := Option.map_eq_some_iff.mp rest
    have run := run_of_exec second
    exact ⟨s, s', reach_of_exec first, (terminated_absorbing
      (run.weaken fun _ _ h => h.1) ended).mpr (run.weaken fun _ _ h => h.2)⟩
  · obtain ⟨s, s', reach, ended, run, revived⟩ := launch_after_end
    refine ⟨s, s', reach, ended, fun inert => ?_⟩
    have stays := ((terminated_absorbing run ended).mpr inert).2
    cases stays.symm.trans revived

end LldbDebugMcp.Server.Termination
