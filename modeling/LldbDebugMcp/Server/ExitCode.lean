/- module: LldbDebugMcp/Server/ExitCode
   source: crates/mcp-tools/src/handlers/{lifecycle,execution}.rs, crates/mcp-session/src/manager.rs
   digest: When the exit code that a call has learnt is in the session as the call returns. -/

import LldbDebugMcp.Server.Status

set_option autoImplicit false
set_option relaxedAutoImplicit false

namespace LldbDebugMcp.Server.ExitCode

open LldbDebugMcp.Core.Types
open LldbDebugMcp.Client.Message
open LldbDebugMcp.Library.Transition
open LldbDebugMcp.Session.Manager
open LldbDebugMcp.Session.Operation
open LldbDebugMcp.Server.Contract
open LldbDebugMcp.Server.Response
open LldbDebugMcp.Server.Handler
open LldbDebugMcp.Server.Lifecycle
open LldbDebugMcp.Server.Execution
open LldbDebugMcp.Server.System
open LldbDebugMcp.Server.Steps
open LldbDebugMcp.Server.Lldb
open LldbDebugMcp.Server.Status (rendering)

/-- The exit code with which the backend call of a handler has ended. -/
def learnt : Pc → Option Int
  | .start (.setProgram _ (.exited code)) | .start (.setPid _ (.exited code) _)
  | .start (.readPid _ (.exited code)) | .start (.setOutcome _ (.exited code) _) => code
  | .resume (.applyExited _ code) | .resume (.drainExited _ code) => code
  | _ => none

/-- The session is terminated, with the exit code. -/
def Recorded (m : SessionManager) (c : Int) : Prop := m.state = .terminated ∧ m.exitCode = some c

/-- A status at once reports the code. -/
theorem Recorded.shown {m : SessionManager} {c : Int} (recorded : Recorded m c) :
    rendering m = .json (.object [("state", .string "terminated"), ("program", .string m.program),
      ("exit_code", .int c)]) := by
  obtain ⟨state, code⟩ := recorded
  cases m
  cases state
  cases code
  rfl

section

variable {S : Seam} {s s' : ToolServer S} {a : Action S} {as : List (Action S)} {t : Nat} {c : Int}
  {g : UInt64} {pc pc' : Pc} {conn : Option (Nat × S.Conn)}

/-- With this step a call returns whose backend call has ended in an exit with the code. -/
def Returns (s : ToolServer S) (a : Action S) (s' : ToolServer S) (c : Int) : Prop :=
  ∃ t choice pc outcome, a = .task t choice ∧ s.tasks t = some pc ∧ learnt pc = some c ∧
    s.step a = some s' ∧ s'.tasks t = some (.done outcome)

/-- Whenever such a call returns, the code is in the session right after. -/
def Records (s : ToolServer S) (a : Action S) : Prop :=
  ∀ s' c, Returns s a s' c → Recorded s'.session c

/-- The code gets into the session in time: by way of the event pump before a launch or attach
sets its outcome, and by the write of a continue or step, which finds the epoch that it has read,
and which no other write takes back before the call returns. -/
structure InTime (s : ToolServer S) (a : Action S) : Prop where
  pumped : ∀ t choice plan pid c, a = .task t choice →
    s.tasks t = some (.start (.setOutcome plan (.exited (some c)) pid)) →
    s.session.exitCode = some c
  current : ∀ t choice g c, a = .task t choice →
    s.tasks t = some (.resume (.applyExited g (some c))) → s.session.generation = g
  kept : ∀ t g c op, s.tasks t = some (.resume (.drainExited g (some c))) →
    stepOperation s a = some op → Recorded s.session c → Recorded (op.apply s.session) c

/-- A continue or step that has written the code, and not yet returned, finds it there. -/
def Written (s : ToolServer S) : Prop :=
  ∀ t g c, s.tasks t = some (.resume (.drainExited g (some c))) → Recorded s.session c

private theorem recorded_terminate {m : SessionManager} (current : m.generation = g) :
    Recorded ((SessionOp.terminateIfGeneration g (some c)).apply m) c := by
  simp [SessionOp.apply, SessionManager.terminateIfGeneration, current, Recorded]

private theorem written_step (written : Written s) (inTime : InTime s a)
    (taken : s.step a = some s') : Written s' := by
  intro t g c there
  rcases tasks_cases taken there with
    old | ⟨tool, -, entry⟩ | ⟨choice, pc, conn, rfl, here, move, rfl⟩
  · rw [step_session taken]
    cases writes : stepOperation s a with
    | none => exact written t g c old
    | some op => exact inTime.kept t g c op old writes (written t g c old)
  · cases tool <;> cases entry
  · obtain ⟨p, rfl, resumed⟩ := move.of_resume
    generalize eq : Goto.at (ResumePc.drainExited g (some c)) = goto at resumed
    cases resumed with
    | applyExited =>
      cases eq
      exact recorded_terminate (inTime.current t choice g c rfl here)
    | @replied _ _ _ _ _ result => rcases result with e | (info | code | _) <;> cases eq
    | _ => cases eq

/-- What a call that returns with a code stood at. -/
private theorem returning (move : TaskMoves s t pc pc' conn) (told : learnt pc = some c)
    {outcome : ToolOutcome} (done : pc' = .done outcome) :
    (∃ plan pid, pc = .start (.setOutcome plan (.exited (some c)) pid)) ∨
      ∃ g, pc = .resume (.drainExited g (some c)) := by
  cases move with
  | start move =>
    cases move with
    | exited =>
      obtain rfl := told
      exact .inl ⟨_, _, rfl⟩
    | setProgram | setPid | readPid => cases done
    | _ => cases told
  | resume move =>
    cases move with
    | drainExited =>
      obtain rfl := told
      exact .inr ⟨_, rfl⟩
    | applyExited => cases done
    | _ => cases told
  | disconnect | pause => cases told

/-- The write of a launch or attach leaves the exit code to whoever has recorded it. -/
private theorem recorded_outcome {plan : Plan} {pid : Int}
    (here : s.tasks t = some (.start (.setOutcome plan (.exited (some c)) pid)))
    {choice : Choice S} (taken : s.step (.task t choice) = some s') :
    Recorded s'.session c ↔ s.session.exitCode = some c := by
  obtain ⟨pc', conn, -, rfl⟩ := task_step taken here
  exact ⟨And.right, fun code => ⟨rfl, code⟩⟩

private theorem records_step (written : Written s) (inTime : InTime s a) : Records s a := by
  rintro s' c ⟨t, choice, pc, outcome, rfl, here, told, taken, done⟩
  obtain ⟨pc', conn, move, after⟩ := task_step taken here
  have last : pc' = .done outcome := by
    rw [after, goOn_tasks, Function.update_self] at done
    exact Option.some.inj done
  rcases returning move told last with ⟨plan, pid, rfl⟩ | ⟨g, rfl⟩
  · exact (recorded_outcome here taken).mpr (inTime.pumped t choice plan pid c rfl here)
  · rw [after]
    exact written t g c here

/-- In a run in which the exit codes get into the session in time, every call whose backend call
has ended in an exit leaves the session terminated with that code as it returns. A launch or
attach does so exactly when the code is there already. -/
theorem exit_code_recorded :
    (∀ (as : List (Action S)) (s : ToolServer S), Run ToolServer.step InTime ToolServer.new as s →
      Run ToolServer.step Records ToolServer.new as s) ∧
    ∀ (s s' : ToolServer S) (t : Nat) (choice : Choice S) (plan : Plan) (pid c : Int),
      s.tasks t = some (.start (.setOutcome plan (.exited (some c)) pid)) →
      s.step (.task t choice) = some s' →
      (Recorded s'.session c ↔ s.session.exitCode = some c) := by
  constructor
  · intro as s run
    exact run.strengthen (I := Written)
      (fun _ _ _ written inTime taken => written_step written inTime taken)
      (fun _ _ _ written inTime _ => records_step written inTime)
      (fun t g c none => by cases none)
  · intro s s' t choice plan pid c here taken
    exact recorded_outcome here taken

end

/-- A launch that waits for the stop at the entry, up to the launch response. -/
def launched : List (Action lldb) :=
  launchCall 0 true ++ handshake 0 true ++ [receive 0 (answer 2), poll 0 0]

def exitedEvent (code : Int) : DapMessage := .event (.exited ⟨code⟩)

/-- The program exits, and the launch sets its outcome before the pump has anything to record. -/
def exitsAtOnce : List (Action lldb) :=
  launched ++ [receive 0 (exitedEvent 3), poll 0 0, .task 0 .reply] ++ proceed 0 3

/-- The call of a disconnect. -/
def isDisconnect (a : Action lldb) : Bool :=
  match a with
  | .call _ (.disconnect _) => true
  | _ => false

/-- The handler is to set the outcome of an exit with a code. -/
def atOutcome (s : ToolServer lldb) (t : Nat) : Option Int :=
  (s.tasks t).bind fun
    | .start (.setOutcome _ (.exited code) _) => code
    | _ => none

private theorem atOutcome_eq {s : ToolServer lldb} {t : Nat} {c : Int}
    (h : atOutcome s t = some c) :
    ∃ plan pid, s.tasks t = some (.start (.setOutcome plan (.exited (some c)) pid)) := by
  obtain ⟨pc, here, h⟩ := Option.bind_eq_some_iff.mp h
  split at h
  · obtain rfl := h
    exact ⟨_, _, here⟩
  · cases h

/-- A launch whose program exits with 3 leaves the session without an exit code. -/
theorem launch_drops_code :
    ¬ ∀ (as : List (Action lldb)) (s : ToolServer lldb),
      Run ToolServer.step anyStep ToolServer.new as s →
      (∀ a ∈ as, isDisconnect a = false) → ∀ a s' c, Returns s a s' c → Recorded s'.session c := by
  intro records
  have eval : ((exec ToolServer.step anyStep (ToolServer.new : ToolServer lldb)
      exitsAtOnce).bind fun s =>
      (s.step (.task 0 .go)).map fun s' =>
        (atOutcome s 0, returned s' 0, s'.session.exitCode)) = some (some 3, true, none) := by
    decide +kernel
  obtain ⟨s, executed, rest⟩ := Option.bind_eq_some_iff.mp eval
  obtain ⟨s', taken, eq⟩ := Option.map_eq_some_iff.mp rest
  obtain ⟨outcome, eq⟩ := Prod.mk.inj eq
  obtain ⟨done, dropped⟩ := Prod.mk.inj eq
  obtain ⟨plan, pid, here⟩ := atOutcome_eq outcome
  obtain ⟨response, done⟩ := returned_eq done
  have recorded := records _ s (run_of_exec executed) (by decide) (.task 0 .go) s' 3
    ⟨0, .go, _, response, rfl, here, rfl, taken, done⟩
  cases dropped.symm.trans recorded.2

/-- The program exits, and the pump records its code before the launch sets its outcome. -/
def exitsInTime : List (Action lldb) :=
  launched ++ [receive 0 (exitedEvent 3), receive 0 terminatedEvent, poll 0 0,
    .pump 0 .terminated, .task 0 .reply] ++ proceed 0 3

/-- No continue or step is called, and the code is recorded before a launch sets its outcome. -/
def startsInTime (s : ToolServer lldb) (a : Action lldb) : Bool :=
  match a with
  | .call _ (.resume _) => false
  | .task t _ => (atOutcome s t).all fun c => s.session.exitCode = some c
  | _ => true

/-- No continue or step is under way. -/
def Unresumed (s : ToolServer lldb) : Prop := ∀ t p, s.tasks t ≠ some (.resume p)

private theorem unresumed_step {s s' : ToolServer lldb} {a : Action lldb} (unresumed : Unresumed s)
    (starts : startsInTime s a = true) (taken : s.step a = some s') : Unresumed s' := by
  intro t p there
  rcases tasks_cases taken there with
    old | ⟨tool, rfl, entry⟩ | ⟨choice, pc, conn, -, here, move, -⟩
  · exact unresumed t p old
  · cases tool with
    | resume => cases starts
    | start | disconnect | pause => cases entry
  · obtain ⟨q, rfl, -⟩ := move.of_resume
    exact unresumed t q here

private theorem inTime_of_starts {s : ToolServer lldb} {a : Action lldb} (unresumed : Unresumed s)
    (starts : startsInTime s a = true) : InTime s a where
  pumped t choice plan pid c eq here := by
    subst eq
    have outcome : atOutcome s t = some c := by
      simp only [atOutcome, here, Option.bind_some]
    simpa [startsInTime, outcome] using starts
  current t _ g c _ here := absurd here (unresumed t _)
  kept t g c _ here := absurd here (unresumed t _)

theorem exit_code_recorded_pumped : ∃ s s' : ToolServer lldb,
    Run ToolServer.step Records ToolServer.new (exitsInTime ++ [.task 0 .go]) s' ∧
    Returns s (.task 0 .go) s' 3 ∧ (Recorded s'.session 3 ↔ s.session.exitCode = some 3) := by
  have eval : ((exec ToolServer.step (fun s a => startsInTime s a = true)
      (ToolServer.new : ToolServer lldb)
      exitsInTime).bind fun s => (s.step (.task 0 .go)).map fun s' =>
        (atOutcome s 0, startsInTime s (.task 0 .go), returned s' 0)) =
      some (some 3, true, true) := by
    decide +kernel
  obtain ⟨s, executed, rest⟩ := Option.bind_eq_some_iff.mp eval
  obtain ⟨s', taken, eq⟩ := Option.map_eq_some_iff.mp rest
  obtain ⟨outcome, eq⟩ := Prod.mk.inj eq
  obtain ⟨last, done⟩ := Prod.mk.inj eq
  obtain ⟨plan, pid, here⟩ := atOutcome_eq outcome
  obtain ⟨response, done⟩ := returned_eq done
  have run : Run ToolServer.step InTime ToolServer.new (exitsInTime ++ [.task 0 .go]) s' :=
    ((run_of_exec executed).append (.single last taken)).strengthen (I := Unresumed)
      (fun _ _ _ unresumed starts taken => unresumed_step unresumed starts taken)
      (fun _ _ _ unresumed starts _ => inTime_of_starts unresumed starts)
      (fun t p none => by cases none)
  exact ⟨s, s', exit_code_recorded.1 _ s' run,
    ⟨0, .go, _, response, rfl, here, rfl, taken, done⟩,
    exit_code_recorded.2 s s' 0 .go plan pid 3 here taken⟩

end LldbDebugMcp.Server.ExitCode
