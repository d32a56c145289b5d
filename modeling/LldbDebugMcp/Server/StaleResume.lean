/- module: LldbDebugMcp/Server/StaleResume
   source: crates/mcp-tools/src/handlers/execution.rs
   digest: What a continue or step does to the session after a disconnect has reset it. -/

import LldbDebugMcp.Server.Lldb

set_option autoImplicit false
set_option relaxedAutoImplicit false

namespace LldbDebugMcp.Server.StaleResume

open LldbDebugMcp.Session.Manager
open LldbDebugMcp.Session.Operation
open LldbDebugMcp.Library.Transition
open LldbDebugMcp.Server.Contract
open LldbDebugMcp.Server.Handler
open LldbDebugMcp.Server.Lifecycle
open LldbDebugMcp.Server.Execution
open LldbDebugMcp.Server.System
open LldbDebugMcp.Server.Steps
open LldbDebugMcp.Server.Lldb

/-- The generation that a resume has read, once it has. -/
def snapshotOf : ResumePc → Option UInt64
  | .setRunning _ _ _ g | .resuming _ _ g | .revert _ g _ | .applyStopped g _
  | .cacheStopped g _ | .drainStopped g _ | .applyExited g _ | .drainExited g _
  | .applyTerminated g => some g
  | .guardStopped _ | .resolveThread _ | .currentBackend .. | .snapshot .. => none

/-- The writes of a resume that do not look at the generation. -/
def clobbers : ResumePc → Bool
  | .setRunning .. | .cacheStopped .. | .revert .. => true
  | _ => false

variable {S : Seam} {s s' : ToolServer S} {a : Action S} {t : Nat} {g : UInt64}

/-- The step is an unguarded write of the task. -/
def Clobbers (t : Nat) (s : ToolServer S) : Action S → Prop
  | .task t' _ => t' = t ∧ ∃ pc, s.tasks t = some (.resume pc) ∧ clobbers pc = true
  | _ => False

/-- The step, if it is one of the task, leaves state, epoch, exit code and last stop alone. -/
def Inert (t : Nat) (s : ToolServer S) (a : Action S) : Prop :=
  ∀ choice s', a = .task t choice → s.step a = some s' → core s'.session = core s.session

/-- Nothing but the task, connections, tokens, arriving calls and pumps of other sessions. -/
def Passive (t : Nat) (s : ToolServer S) : Action S → Prop
  | .task t' _ => t' = t
  | .pump c _ => s.pumps c ≠ some s.session.generation
  | _ => True

/-- A guarded write of another generation is without effect. -/
private theorem guarded_core {m : SessionManager} {pc : ResumePc} (hg : snapshotOf pc = some g)
    (stale : m.generation ≠ g) (quiet : clobbers pc = false) :
    core (applyOption m (Pc.operation (.resume pc))) = core m := by
  cases pc with
  | applyStopped | applyTerminated =>
    obtain rfl := Option.some.inj hg
    exact congrArg core (setStateIfGeneration_stale _ stale)
  | applyExited =>
    obtain rfl := Option.some.inj hg
    exact congrArg core (terminateIfGeneration_stale _ stale)
  | setRunning | cacheStopped | revert => cases quiet
  | resuming | drainStopped | drainExited => rfl
  | guardStopped | resolveThread | currentBackend | snapshot => cases hg

/-- An unguarded write never leaves a session as the reset left it. -/
private theorem clobbers_core {m : SessionManager} {pc : ResumePc} (loud : clobbers pc = true)
    (idle : m.state = .idle) (unstopped : m.lastStopped = none) :
    core (applyOption m (Pc.operation (.resume pc))) ≠ core m := by
  intro eq
  cases pc with
  | setRunning | revert => cases (congrArg Core.state eq).trans idle
  | cacheStopped => cases (congrArg Core.lastStopped eq).trans unstopped
  | _ => cases loud

/-- A resume keeps its snapshot until it returns. -/
private theorem snapshot_kept {w : World S} {token : Bool} {pc : ResumePc} {goto : Goto ResumePc}
    {conn : Option (Nat × S.Conn)} (move : pc.Moves w t token goto conn)
    (hg : snapshotOf pc = some g) :
    (∃ outcome, goto = .done outcome) ∨ ∃ pc', goto = .at pc' ∧ snapshotOf pc' = some g := by
  cases move with
  | turnedAway | admitted | badThread | resolved | noBackend | backend | snapshot => cases hg
  | @replied args b g' k k' result here finished =>
    refine .inr ⟨_, rfl, ?_⟩
    rcases result with e | info | code | _ <;> exact hg
  | setRunning | applied | notApplied | cacheStopped | applyExited => exact .inr ⟨_, rfl, hg⟩
  | cancelled | revert | drainStopped | drainExited | applyTerminated => exact .inl ⟨_, rfl⟩

/-- A resume that holds a snapshot of another generation, or has returned. -/
private structure Stale (t : Nat) (g : UInt64) (s : ToolServer S) : Prop where
  task : (∃ outcome, s.tasks t = some (.done outcome)) ∨
    ∃ pc, s.tasks t = some (.resume pc) ∧ snapshotOf pc = some g
  generation : s.session.generation ≠ g

private theorem Stale.step (stale : Stale t g s) (taken : s.step a = some s')
    (nowrap : Resets s a → s.session.generation + 1 ≠ g) : Stale t g s' where
  task := by
    by_cases self : ∃ choice, a = .task t choice
    · obtain ⟨choice, rfl⟩ := self
      rcases stale.task with ⟨outcome, here⟩ | ⟨pc, here, hg⟩
      · obtain ⟨pc', conn, move, -⟩ := task_step taken here
        cases move
      · obtain ⟨pc', conn, move, rfl⟩ := task_step taken here
        cases move with
        | resume move =>
          rcases snapshot_kept move hg with ⟨outcome, rfl⟩ | ⟨pc', rfl, hg'⟩
          · exact .inl ⟨outcome, by simp [Pc.ofGoto]⟩
          · exact .inr ⟨pc', by simp [Pc.ofGoto], hg'⟩
    · have other : ∀ choice, a ≠ .task t choice := fun choice h => self ⟨choice, h⟩
      rcases stale.task with ⟨outcome, here⟩ | ⟨pc, here, hg⟩
      · exact .inl ⟨outcome, task_stays taken here other⟩
      · exact .inr ⟨pc, task_stays taken here other, hg⟩
  generation := by
    by_cases reset : Resets s a
    · rw [step_of_resets taken reset]
      exact nowrap reset
    · rw [step_generation taken reset]
      exact stale.generation

/-- A step of a stale resume is inert unless it is an unguarded write. -/
private theorem Stale.inert (stale : Stale t g s) (quiet : ¬ Clobbers t s a) : Inert t s a := by
  rintro choice s' rfl taken
  rcases stale.task with ⟨outcome, here⟩ | ⟨pc, here, hg⟩
  · obtain ⟨pc', conn, move, -⟩ := task_step taken here
    cases move
  · obtain ⟨pc', conn, move, rfl⟩ := task_step taken here
    have hq : clobbers pc = false := by
      rw [← Bool.not_eq_true]
      exact fun loud => quiet ⟨rfl, pc, here, loud⟩
    exact guarded_core hg stale.generation hq

private theorem passive_no_reset (stale : Stale t g s) (passive : Passive t s a) :
    ¬ Resets s a := by
  intro reset
  cases a with
  | task t' choice =>
    obtain rfl : t' = t := passive
    have op := resets_task.mp reset
    rcases stale.task with ⟨outcome, here⟩ | ⟨pc, here, -⟩ <;> rw [taskOperation_of here] at op
    · cases op
    · cases pc <;> cases op
  | _ => exact reset

/-- Steps that are neither the task's nor a current pump's leave the core alone. -/
private theorem passive_core (stale : Stale t g s) (passive : Passive t s a)
    (taken : s.step a = some s') (inert : Inert t s a) : core s'.session = core s.session := by
  cases moves_of_step taken with
  | @task t' choice =>
    obtain rfl : t' = t := passive
    exact inert choice _ rfl taken
  | @pump c which g' k k' event bound here pulled =>
    refine pumpOperation_core fun current => passive ?_
    rw [bound, current]
  | call | cancelToken | conn => rfl
  | bookkeeping op => exact bookkeeping_core s.session op

/-- A step that leaves a session as a reset left it is not an unguarded write. -/
private theorem clobbers_moves {g : UInt64} (taken : s.step a = some s')
    (idle : core s.session = ⟨.idle, g, none, none⟩) (kept : core s'.session = core s.session) :
    ¬ Clobbers t s a := by
  intro loud
  cases a with
  | task t' choice =>
    obtain ⟨rfl, pc, here, loud⟩ := loud
    obtain ⟨pc', conn, -, rfl⟩ := task_step taken here
    exact clobbers_core loud (congrArg Core.state idle) (congrArg Core.lastStopped idle) kept
  | _ => exact loud

/-- A continue or step whose session a disconnect resets. Under any schedule its later steps
are inert as long as none of its unguarded writes runs; and while nothing else touches the
session, the session stays as the reset left it exactly when none of them does. -/
theorem stale_resume_inert {s₀ : ToolServer S} {d : Nat} {choice : Choice S} {pc : ResumePc}
    {as : List (Action S)} (resume : s.tasks t = some (.resume pc))
    (snapshotted : snapshotOf pc = some s.session.generation)
    (disconnect : s.tasks d = some (.disconnect .reset))
    (reset : s.step (.task d choice) = some s₀) :
    (Run ToolServer.step (fun s₁ a => ¬ Clobbers t s₁ a ∧
        (Resets s₁ a → s₁.session.generation + 1 ≠ s.session.generation)) s₀ as s' →
      Run ToolServer.step (Inert t) s₀ as s') ∧
    core s₀.session = ⟨.idle, s.session.generation + 1, none, none⟩ ∧
    (Run ToolServer.step (Passive t) s₀ as s' →
      (Throughout ToolServer.step (fun s₁ => core s₁.session = core s₀.session) s₀ as s' ↔
        Run ToolServer.step (fun s₁ a => ¬ Clobbers t s₁ a) s₀ as s')) := by
  have resets : Resets s (.task d choice) :=
    resets_task.mpr (by rw [taskOperation_of disconnect]; rfl)
  have idle := step_of_resets reset resets
  have stale₀ : Stale t s.session.generation s₀ := by
    refine ⟨.inr ⟨pc, task_stays reset resume ?_, snapshotted⟩, ?_⟩
    · rintro choice' h
      cases h
      cases resume.symm.trans disconnect
    · rw [idle]
      exact generation_succ_ne _
  have core₀ : core s₀.session = ⟨.idle, s.session.generation + 1, none, none⟩ := by
    rw [idle]
    rfl
  refine ⟨fun run => ?_, core₀, fun run => ?_⟩
  · exact run.strengthen (I := Stale t s.session.generation)
      (fun s₁ a s₂ stale allowed taken => stale.step taken allowed.2)
      (fun s₁ a _ stale allowed _ => stale.inert allowed.1) stale₀
  · refine run.throughout_iff (J := Stale t s.session.generation) ?_ ?_ stale₀ rfl
    · exact fun s₁ a s₂ stale passive taken =>
        stale.step taken fun h => absurd h (passive_no_reset stale passive)
    · intro s₁ a s₂ stale same passive taken
      constructor
      · exact fun kept => clobbers_moves taken (same.trans core₀) (kept.trans same.symm)
      · exact fun quiet => (passive_core stale passive taken (stale.inert quiet)).trans same

/-- The task is a resume that holds the current generation. -/
def snapshotted (s : ToolServer S) (t : Nat) : Bool :=
  (s.tasks t).any fun
    | .resume pc => snapshotOf pc == some s.session.generation
    | _ => false

private theorem snapshotted_eq (h : snapshotted s t = true) :
    ∃ pc, s.tasks t = some (.resume pc) ∧ snapshotOf pc = some s.session.generation := by
  obtain ⟨pc, here, h⟩ := (Option.any_eq_true _ _).mp h
  cases pc with
  | resume pc => exact ⟨pc, here, beq_iff_eq.mp h⟩
  | _ => cases h

/-- A continue has read the generation when a disconnect, whose request is never answered,
resets the session; the continue then sets the idle session running. -/
private theorem running_after_reset :
    ∃ (s s₀ s' : ToolServer lldb) (pc : ResumePc), Reach ToolServer.step ToolServer.new s ∧
      s.tasks 1 = some (.resume pc) ∧ snapshotOf pc = some s.session.generation ∧
      s.tasks 2 = some (.disconnect .reset) ∧ s.step (.task 2 .go) = some s₀ ∧
      s₀.step (.task 1 .go) = some s' ∧ core s₀.session = ⟨.idle, 1, none, none⟩ ∧
      core s'.session = ⟨.running, 1, none, none⟩ := by
  have eval : ((exec ToolServer.step anyStep (ToolServer.new : ToolServer lldb)
      (launchCall 0 true ++ handshake 0 true ++ launchStopped 0 ++
        [.call 1 (.resume ⟨.cont, .ok none, none⟩)] ++ proceed 1 4 ++
        [.call 2 (.disconnect true)] ++ proceed 2 2 ++ [.task 2 .timeout] ++ proceed 2 1)).bind
      fun s => (s.step (.task 2 .go)).bind fun s₀ => (s₀.step (.task 1 .go)).map fun s' =>
        ((snapshotted s 1, resetting s 2), core s₀.session, core s'.session)) =
      some ((true, true), ⟨.idle, 1, none, none⟩, ⟨.running, 1, none, none⟩) := by
    decide +kernel
  obtain ⟨s, first, rest⟩ := Option.bind_eq_some_iff.mp eval
  obtain ⟨s₀, reset, rest⟩ := Option.bind_eq_some_iff.mp rest
  obtain ⟨s', run, eq⟩ := Option.map_eq_some_iff.mp rest
  obtain ⟨points, cores⟩ := Prod.mk.inj eq
  obtain ⟨pc, resume, snapshot⟩ := snapshotted_eq (Prod.mk.inj points).1
  exact ⟨s, s₀, s', pc, reach_of_exec first, resume, snapshot,
    resetting_eq (Prod.mk.inj points).2, reset, run, (Prod.mk.inj cores).1, (Prod.mk.inj cores).2⟩

/-- A resume that a reset overtakes is not inert. -/
theorem stale_resume_not_inert :
    ¬ ∀ (s s₀ s' : ToolServer lldb) (t d : Nat) (choice : Choice lldb) (pc : ResumePc)
      (as : List (Action lldb)), Reach ToolServer.step ToolServer.new s →
      s.tasks t = some (.resume pc) → snapshotOf pc = some s.session.generation →
      s.tasks d = some (.disconnect .reset) → s.step (.task d choice) = some s₀ →
      Run ToolServer.step anyStep s₀ as s' → Run ToolServer.step (Inert t) s₀ as s' := by
  intro inert
  obtain ⟨s, s₀, s', pc, reach, resume, snapshot, disconnect, reset, taken, core₀, core'⟩ :=
    running_after_reset
  have run := inert s s₀ s' 1 2 .go pc [.task 1 .go] reach resume snapshot disconnect reset
    (Run.single trivial taken)
  cases run with
  | cons allowed taken' _ =>
    have same := allowed .go s' rfl taken
    rw [core₀, core'] at same
    cases same

theorem stale_resume_inert_continue :
    ∃ (s s₀ : ToolServer lldb) (pc : ResumePc), Reach ToolServer.step ToolServer.new s ∧
      s.tasks 1 = some (.resume pc) ∧
      core s₀.session = ⟨.idle, s.session.generation + 1, none, none⟩ ∧
      ∀ s' as, Run ToolServer.step (Passive 1) s₀ as s' →
        (Throughout ToolServer.step (fun s₁ => core s₁.session = core s₀.session) s₀ as s' ↔
          Run ToolServer.step (fun s₁ a => ¬ Clobbers 1 s₁ a) s₀ as s') := by
  obtain ⟨s, s₀, -, pc, reach, resume, snapshot, disconnect, reset, -⟩ := running_after_reset
  exact ⟨s, s₀, pc, reach, resume,
    (@stale_resume_inert _ _ s₀ _ _ _ _ _ [] resume snapshot disconnect reset).2.1,
    fun s' as => (stale_resume_inert resume snapshot disconnect reset).2.2⟩

end LldbDebugMcp.Server.StaleResume
