/- module: LldbDebugMcp/Server/Progress
   source: crates/mcp-tools/src/handlers/{lifecycle,execution}.rs,
   crates/lldb-backend/src/backend.rs
   digest: How far a tool call is from its return, and what it can wait for. -/

import LldbDebugMcp.Server.Calls

set_option autoImplicit false
set_option relaxedAutoImplicit false

namespace LldbDebugMcp.Server.Progress

open LldbDebugMcp.Core.Types
open LldbDebugMcp.Library.Effect
open LldbDebugMcp.Library.Transition
open LldbDebugMcp.Backend.Operations (Call Reply Op Dap)
open LldbDebugMcp.Backend.Adapter (Connection Fut)
open LldbDebugMcp.Backend.Steps (Advances call_moves)
open LldbDebugMcp.Server.Contract
open LldbDebugMcp.Server.Handler
open LldbDebugMcp.Server.Lifecycle
open LldbDebugMcp.Server.Execution
open LldbDebugMcp.Server.System
open LldbDebugMcp.Server.Steps
open LldbDebugMcp.Server.Lldb
open LldbDebugMcp.Server.Calls

/-- The most steps that a launch or attach still takes, by itself. -/
def startRank : StartPc → Nat
  | .guardIdle _ => 12
  | .setConfiguring _ => 11
  | .flushPending _ => 10
  | .connecting _ => 9
  | .setBackend _ => 8
  | .bindPump _ => 7
  | .starting _ => 6
  | .setProgram .. => 5
  | .setPid .. => 4
  | .readPid .. | .cleanupClear _ | .connectReset _ => 3
  | .setOutcome .. | .cleanupReset _ | .connectResetOutput _ => 2
  | .cacheStopped .. | .cleanupResetOutput _ | .connectClear _ => 1

def disconnectRank : DisconnectPc → Nat
  | .guardActive _ => 6
  | .currentBackend _ => 5
  | .disconnecting _ => 4
  | .takeBackend => 3
  | .reset => 2
  | .resetOutput => 1

def resumeRank : ResumePc → Nat
  | .guardStopped _ => 9
  | .resolveThread _ => 8
  | .currentBackend .. => 7
  | .snapshot .. => 6
  | .setRunning .. => 5
  | .resuming .. => 4
  | .applyStopped .. => 3
  | .cacheStopped .. | .applyExited .. => 2
  | .revert .. | .drainStopped .. | .drainExited .. | .applyTerminated _ => 1

def pauseRank : PausePc → Nat
  | .guardRunning => 3
  | .currentBackend => 2
  | .pausing _ => 1

/-- The most steps that a task still takes. -/
def rank : Pc → Nat
  | .start pc => startRank pc
  | .disconnect pc => disconnectRank pc
  | .resume pc => resumeRank pc
  | .pause pc => pauseRank pc
  | .done _ => 0

/-- As many steps as there are before a call begins. -/
def remaining {S : Seam} (s : ToolServer S) (t : Nat) : Nat := ((s.tasks t).map rank).getD 12

/-- A step of the task itself. -/
def ofTask {S : Seam} (t : Nat) : Action S → Bool
  | .task t' _ => t' == t
  | _ => false

section

variable {S : Seam} {s s' : ToolServer S} {a : Action S} {t : Nat}

theorem rank_le (pc : Pc) : rank pc ≤ 12 := by
  cases pc with
  | start pc => cases pc <;> simp [rank, startRank]
  | disconnect pc => cases pc <;> simp [rank, disconnectRank]
  | resume pc => cases pc <;> simp [rank, resumeRank]
  | pause pc => cases pc <;> simp [rank, pauseRank]
  | done outcome => simp [rank]

theorem remaining_le (s : ToolServer S) (t : Nat) : remaining s t ≤ 12 := by
  unfold remaining
  cases s.tasks t with
  | none => exact Nat.le_refl 12
  | some pc => exact rank_le pc

/-- Every step of a task brings it nearer to its return. -/
theorem rank_moves {pc pc' : Pc} {conn : Option (Nat × S.Conn)}
    (move : TaskMoves s t pc pc' conn) : rank pc' < rank pc := by
  cases move with
  | start move => cases move <;> simp [Pc.ofGoto, rank, startRank]
  | disconnect move => cases move <;> simp [Pc.ofGoto, rank, disconnectRank]
  | resume move =>
    cases move with
    | @replied _ _ _ _ _ result =>
      rcases result with e | (info | code | _) <;>
        simp [Pc.ofGoto, rank, resumeRank, ResumePc.handleStopResult]
    | _ => simp [Pc.ofGoto, rank, resumeRank]
  | pause move => cases move <;> simp [Pc.ofGoto, rank, pauseRank]

theorem remaining_step (taken : s.step a = some s') :
    remaining s' t + (if ofTask t a then 1 else 0) ≤ remaining s t := by
  cases moves_of_step taken with
  | @call t' tool fresh =>
    have entry := rank_le tool.entry
    by_cases same : t = t'
    · subst same
      simp [remaining, ofTask, fresh, entry]
    · simp [remaining, ofTask, Function.update_of_ne same]
  | @task t' choice pc pc' conn here move =>
    have fallen := rank_moves move
    by_cases same : t = t'
    · subst same
      simp [remaining, ofTask, here]
      omega
    · simp [remaining, ofTask, Function.update_of_ne same, Ne.symm same]
  | cancelToken | conn | pump | bookkeeping => simp [remaining, ofTask]

/-- Whatever else goes on, a tool call takes at most twelve steps. -/
theorem task_steps_le {P : ToolServer S → Action S → Prop} {as : List (Action S)}
    (run : Run ToolServer.step P s as s') (t : Nat) : as.countP (ofTask t) ≤ 12 := by
  have bound := Run.countP_le (fun s => remaining s t) (ofTask t)
    (fun _ _ _ taken => remaining_step taken) run
  have top := remaining_le s t
  omega

/-- The connection that a point of a handler needs. -/
def uses (t : Nat) : Pc → Option Nat
  | .start (.setBackend _) | .start (.bindPump _) | .start (.starting _)
  | .start (.setProgram ..) => some t
  | .disconnect (.disconnecting b) | .resume (.snapshot _ _ b) | .resume (.setRunning _ _ b _)
  | .resume (.resuming _ b _) | .pause (.pausing b) => some b
  | _ => none

theorem uses_of_awaits {b : Nat} {pc : Pc} (awaits : pc.awaits t = some b) :
    uses t pc = some b := by
  cases pc with
  | start pc => cases pc <;> first | exact awaits | cases awaits
  | disconnect pc | resume pc | pause pc => cases pc <;> first | exact awaits | cases awaits
  | done => cases awaits

/-- The replies that a handler can go on with. -/
def Takes : Pc → Reply → Prop
  | .start (.starting _), reply => (startOutcome reply).isSome = true
  | .disconnect (.disconnecting _), .disconnect | .resume (.resuming ..), .resume _
  | .pause (.pausing _), .pause _ => True
  | _, _ => False

/-- Every path of the program ends in a reply that the handler takes. -/
def Ends (pc : Pc) (program : Dap Reply) : Prop :=
  Program.Safe (fun _ _ => True) (fun g _ _ => g) (fun _ reply => Takes pc reply) () program

theorem ends_bind {α : Type} {pc : Pc} {p : Dap α} {f : α → Dap Reply}
    (all : ∀ value, Ends pc (f value)) : Ends pc (p.bind f) :=
  (Program.safe_any p).bind fun _ value _ => all value

theorem ends_start (plan : Plan) : Ends (.start (.starting plan)) plan.call.program := by
  cases plan with
  | launch spec => exact ends_bind fun result => rfl
  | attach spec =>
    refine ends_bind fun result => ?_
    rcases result with e | (info | code | _) <;> rfl

/-- A task that comes to need a connection opens it, finds it in the slot, or needed it before. -/
theorem uses_moves {b : Nat} {pc pc' : Pc} {conn : Option (Nat × S.Conn)}
    (move : TaskMoves s t pc pc' conn) (used : uses t pc' = some b) :
    uses t pc = some b ∨ s.backend = some b ∨ ∃ k, conn = some (b, k) := by
  cases move with
  | start move =>
    cases move with
    | connected => exact .inr (.inr ⟨_, congrArg (fun b => some (b, _)) (Option.some.inj used)⟩)
    | bindPump => exact .inl used
    | setBackend | succeeded => exact .inl used
    | _ => cases used
  | disconnect move =>
    cases move with
    | begun slot => exact .inr (.inl (slot.trans used))
    | _ => cases used
  | resume move =>
    cases move with
    | backend slot => exact .inr (.inl (slot.trans used))
    | snapshot | setRunning => exact .inl used
    | @replied _ _ _ _ _ result => rcases result with e | (info | code | _) <;> cases used
    | _ => cases used
  | pause move =>
    cases move with
    | begun slot => exact .inr (.inl (slot.trans used))
    | _ => cases used

/-- A task that comes to await a reply has just begun the call, whose replies it takes. -/
theorem begins_moves {b : Nat} {pc pc' : Pc} {conn : Option (Nat × S.Conn)}
    (move : TaskMoves s t pc pc' conn) (awaits : pc'.awaits t = some b) :
    ∃ k k' call, s.conns b = some k ∧ S.start k t call = some k' ∧
      conn = some (b, k') ∧ Ends pc' call.program := by
  cases move with
  | start move =>
    cases move with
    | bindPump here started =>
      cases awaits
      exact ⟨_, _, _, here, started, rfl, ends_start _⟩
    | _ => cases awaits
  | disconnect move =>
    cases move with
    | begun _ here started =>
      cases awaits
      exact ⟨_, _, _, here, started, rfl, ends_bind fun _ => trivial⟩
    | _ => cases awaits
  | resume move =>
    cases move with
    | @setRunning args _ _ _ _ _ here started =>
      cases awaits
      refine ⟨_, _, _, here, started, rfl, ?_⟩
      cases args.resume <;> exact ends_bind fun _ => trivial
    | @replied _ _ _ _ _ result => rcases result with e | (info | code | _) <;> cases awaits
    | _ => cases awaits
  | pause move =>
    cases move with
    | begun _ here started =>
      cases awaits
      exact ⟨_, _, _, here, started, rfl, ends_bind fun _ => trivial⟩
    | _ => cases awaits

end

section

variable {s s' : ToolServer lldb} {a : System.Action lldb} {b t : Nat}

/-- Every connection that is named is there, and every call that is awaited is in flight, with a
reply to come that its handler takes. -/
structure Attended (s : ToolServer lldb) : Prop where
  slot : ∀ b, s.backend = some b → ∃ k, s.conns b = some k
  used : ∀ t pc b, s.tasks t = some pc → uses t pc = some b → ∃ k, s.conns b = some k
  called : ∀ t pc b k, s.tasks t = some pc → pc.awaits t = some b → s.conns b = some k →
    ∃ f, k.calls t = some f ∧ Ends pc f.program

/-- A call in flight keeps its end in view while the connection moves. -/
theorem ends_driven {k k' : Connection} {f : Fut} {pc : Pc} {act : Backend.Adapter.Action}
    (moves : Backend.Steps.Moves k act k') (kept : act ≠ .cancel t) (unfinished : act ≠ .finish t)
    (here : k.calls t = some f) (ends : Ends pc f.program) :
    ∃ f', k'.calls t = some f' ∧ Ends pc f'.program := by
  rcases call_moves moves here kept unfinished with same | ⟨choice, k₁, f', advances, rfl⟩
  · exact ⟨f, same, ends⟩
  · refine ⟨f', Function.update_self .., ?_⟩
    rcases advances.program_cases with eq | ⟨i, next, r, at_, eq, -⟩
    · rw [eq]
      exact ends
    · rw [eq]
      rw [at_] at ends
      exact ends.2 r

theorem attended_step (reach : Reach ToolServer.step ToolServer.new s) (attended : Attended s)
    (taken : s.step a = some s') : Attended s' where
  slot b slot := by
    have old : ∀ {b}, (∃ k, s.conns b = some k) → ∃ k', s'.conns b = some k' := fun ⟨k, here⟩ =>
      let ⟨k', there, _⟩ := conn_step reach taken here
      ⟨k', there⟩
    cases moves_of_step taken with
    | @task t choice pc pc' conn at_ move =>
      rw [goOn_backend] at slot
      cases pc with
      | start pc =>
        cases pc with
        | setBackend plan =>
          obtain rfl := Option.some.inj slot
          exact old (attended.used t _ t at_ rfl)
        | connectClear | cleanupClear => cases slot
        | _ => exact old (attended.slot b slot)
      | disconnect pc =>
        cases pc with
        | takeBackend => cases slot
        | _ => exact old (attended.slot b slot)
      | resume | pause | done => exact old (attended.slot b slot)
    | call | cancelToken | conn | pump | bookkeeping => exact old (attended.slot b slot)
  used t pc b there used := by
    have old : (∃ k, s.conns b = some k) → ∃ k', s'.conns b = some k' := fun ⟨k, here⟩ =>
      let ⟨k', there, _⟩ := conn_step reach taken here
      ⟨k', there⟩
    rcases tasks_cases taken there with same | ⟨tool, rfl, rfl⟩ |
      ⟨choice, pc₀, conn, rfl, at_, move, rfl⟩
    · exact old (attended.used t pc b same used)
    · cases tool <;> cases used
    · rcases uses_moves move used with before | slot | ⟨k, rfl⟩
      · exact old (attended.used t pc₀ b at_ before)
      · exact old (attended.slot b slot)
      · exact ⟨k, Function.update_self ..⟩
  called t pc b k' there awaits here' := by
    by_cases own : ∃ choice, a = .task t choice
    · obtain ⟨choice, rfl⟩ := own
      rcases tasks_cases taken there with same | ⟨tool, eq, -⟩ | ⟨-, pc₀, conn, -, at_, move, rfl⟩
      · obtain ⟨pc', conn, move, rfl⟩ := task_step taken same
        rw [goOn_tasks, Function.update_self] at there
        obtain rfl := Option.some.inj there
        exact absurd (rank_moves move) (Nat.lt_irrefl _)
      · cases eq
      · obtain ⟨k, k₁, call, -, started, rfl, ends⟩ := begins_moves move awaits
        change Function.update s.conns b (some k₁) b = some k' at here'
        rw [Function.update_self] at here'
        obtain rfl := Option.some.inj here'
        obtain ⟨-, rfl⟩ := Backend.Steps.start_eq started
        exact ⟨_, Function.update_self .., ends⟩
    · have before : s.tasks t = some pc := by
        rcases tasks_cases taken there with same | ⟨tool, rfl, rfl⟩ | ⟨choice, -, -, rfl, -⟩
        · exact same
        · cases tool <;> cases awaits
        · exact absurd ⟨choice, rfl⟩ own
      obtain ⟨k, here⟩ := attended.used t pc b before (uses_of_awaits awaits)
      obtain ⟨f, call, ends⟩ := attended.called t pc b k before awaits here
      obtain ⟨k₁, here₁, driven⟩ := conn_driven reach taken here
      obtain rfl := Option.some.inj (here'.symm.trans here₁)
      rcases driven with rfl | ⟨act, drives, moves⟩
      · exact ⟨f, call, ends⟩
      · refine ends_driven moves (fun h => own ?_) (fun h => own ?_) call ends
        · subst h
          exact drives.ends (.inl rfl)
        · subst h
          exact drives.ends (.inr rfl)

theorem attended_of_reach (reach : Reach ToolServer.step ToolServer.new s) : Attended s := by
  obtain ⟨as, run⟩ := reach
  refine (run.keeps (I := fun s => Reach ToolServer.step ToolServer.new s ∧ Attended s) ?_
    ⟨.start _, fun _ h => ?_, fun _ _ _ h => ?_, fun _ _ _ _ h => ?_⟩).2
  · rintro s a s' ⟨reach, attended⟩ _ taken
    exact ⟨reach.next taken, attended_step reach attended taken⟩
  all_goals cases h

/-- A call that is begun is the first of its task on the connection. -/
theorem fresh_call {k : Connection} {pc : Pc} (reach : Reach ToolServer.step ToolServer.new s)
    (at_ : s.tasks t = some pc) (idle : pc.awaits t = none) (here : s.conns b = some k) :
    k.calls t = none := by
  cases call : k.calls t with
  | none => rfl
  | some f =>
    obtain ⟨pc₀, at₀, awaits⟩ := call_awaited reach here call
    obtain rfl := Option.some.inj (at_.symm.trans at₀)
    cases idle.symm.trans awaits

theorem startCall_fresh {π : Type} {w : World lldb} {k : Connection} (call : Call) (pc : π)
    (here : w.conns b = some k) (fresh : k.calls t = none) :
    ∃ n, w.startCall b t call pc = some n := by
  refine ⟨⟨.at pc, some (b, k.setCall t (some (Fut.new call.program)))⟩, ?_⟩
  simp only [World.startCall, here, Option.bind_some, Connection.start, fresh, Option.map_some]

theorem takeReply_goes {π ρ : Type} {w : World lldb} {k : Connection} {f : Fut} {reply : Reply}
    {goto : Reply → Option (Goto π)} {F : Next lldb π → ρ} (here : w.conns b = some k)
    (call : k.calls t = some f) (done : f.program = .done reply)
    (takes : ∃ g, goto reply = some g) : ∃ p, (w.takeReply b t goto).map F = some p := by
  obtain ⟨program, await, rx, waiter⟩ := f
  obtain rfl := done
  obtain ⟨g, takes⟩ := takes
  refine ⟨F ⟨g, some (b, k.setCall t none)⟩, ?_⟩
  simp only [World.takeReply, here, Option.bind_some, Connection.finish, call, takes,
    Option.map_some]

theorem dropCall_suspended {π : Type} {w : World lldb} {k : Connection} {f : Fut} (goto : Goto π)
    (here : w.conns b = some k) (call : k.calls t = some f) (suspended : f.suspended = true) :
    ∃ n, w.dropCall b t goto = some n := by
  refine ⟨⟨goto, some (b, (k.dropFut f).setCall t none)⟩, ?_⟩
  simp only [World.dropCall, here, Option.bind_some, Connection.cancel, call, suspended, if_true,
    Option.map_some]

/-- What a `connect()` comes back with. -/
def Settles (back : Choice lldb) : Prop :=
  (∃ conf, back = .connected conf) ∨ ∃ e, back = .connectFailed e

theorem step_of_next {choice : Choice lldb} {pc : Pc} (at_ : s.tasks t = some pc)
    (next : ∃ p, pc.next s.toWorld t (s.tokens t) choice = some p) :
    ∃ s', s.step (.task t choice) = some s' := by
  obtain ⟨⟨pc', conn⟩, next⟩ := next
  exact ⟨s.goOn t pc pc' conn, by
    simp only [ToolServer.step, ToolServer.taskStep, at_, Option.bind_some, next, Option.map_some]⟩

theorem start_next_idle {pc : StartPc} {back : Choice lldb} (settles : Settles back)
    (reach : Reach ToolServer.step ToolServer.new s) (at_ : s.tasks t = some (.start pc))
    (idle : (Pc.start pc).awaits t = none) : ∃ choice, (choice = .go ∨ choice = back) ∧
      ∃ n, pc.next s.toWorld t (s.tokens t) choice = some n := by
  have attended := attended_of_reach reach
  cases pc with
  | guardIdle args =>
    refine ⟨.go, .inl rfl, ?_⟩
    simp only [StartPc.next]
    split <;> exact ⟨_, rfl⟩
  | setConfiguring args => exact ⟨.go, .inl rfl, by cases args <;> exact ⟨_, rfl⟩⟩
  | connecting plan =>
    refine ⟨back, .inr rfl, ?_⟩
    rcases settles with ⟨conf, rfl⟩ | ⟨e, rfl⟩ <;> exact ⟨_, rfl⟩
  | bindPump plan =>
    obtain ⟨k, here⟩ := attended.used t _ t at_ rfl
    exact ⟨.go, .inl rfl, startCall_fresh _ _ here (fresh_call reach at_ rfl here)⟩
  | starting plan => cases idle
  | setProgram plan outcome =>
    obtain ⟨k, here⟩ := attended.used t _ t at_ rfl
    exact ⟨.go, .inl rfl, _, by simp only [StartPc.next, here, Option.bind_some]; rfl⟩
  | setOutcome plan outcome pid => exact ⟨.go, .inl rfl, by cases outcome <;> exact ⟨_, rfl⟩⟩
  | _ => exact ⟨.go, .inl rfl, _, rfl⟩

/-- A task that awaits no reply takes its next step, whatever state the server is in. -/
theorem idle_step {pc : Pc} {back : Choice lldb} (settles : Settles back)
    (reach : Reach ToolServer.step ToolServer.new s) (at_ : s.tasks t = some pc)
    (unfinished : ∀ outcome, pc ≠ .done outcome) (idle : pc.awaits t = none) :
    ∃ choice, (choice = .go ∨ choice = back) ∧ ∃ s', s.step (.task t choice) = some s' := by
  have attended := attended_of_reach reach
  have mapped : ∀ {π : Type} {inj : π → Pc} {o : Option (Next lldb π)}, (∃ n, o = some n) →
      ∃ p, o.map (fun n => (Pc.ofGoto inj n.goto, n.conn)) = some p := by
    rintro π inj o ⟨n, rfl⟩
    exact ⟨_, rfl⟩
  cases pc with
  | start pc =>
    obtain ⟨choice, allowed, next⟩ := start_next_idle settles reach at_ idle
    exact ⟨choice, allowed, step_of_next at_ (mapped next)⟩
  | disconnect pc =>
    refine ⟨.go, .inl rfl, step_of_next at_ (mapped ?_)⟩
    cases pc with
    | guardActive terminate =>
      simp only [DisconnectPc.next]
      split <;> exact ⟨_, rfl⟩
    | currentBackend terminate =>
      simp only [DisconnectPc.next]
      split
      · exact ⟨_, rfl⟩
      · rename_i b slot
        obtain ⟨k, here⟩ := attended.slot b slot
        exact startCall_fresh _ _ here (fresh_call reach at_ rfl here)
    | disconnecting b => cases idle
    | _ => exact ⟨_, rfl⟩
  | resume pc =>
    refine ⟨.go, .inl rfl, step_of_next at_ (mapped ?_)⟩
    cases pc with
    | guardStopped args | resolveThread args | currentBackend args threadId =>
      simp only [ResumePc.next]
      split <;> exact ⟨_, rfl⟩
    | setRunning args threadId b g =>
      obtain ⟨k, here⟩ := attended.used t _ b at_ rfl
      exact startCall_fresh _ _ here (fresh_call reach at_ rfl here)
    | resuming args b g => cases idle
    | applyStopped g info =>
      simp only [ResumePc.next]
      split <;> exact ⟨_, rfl⟩
    | _ => exact ⟨_, rfl⟩
  | pause pc =>
    refine ⟨.go, .inl rfl, step_of_next at_ (mapped ?_)⟩
    cases pc with
    | guardRunning =>
      simp only [PausePc.next]
      split <;> exact ⟨_, rfl⟩
    | currentBackend =>
      simp only [PausePc.next]
      split
      · exact ⟨_, rfl⟩
      · rename_i b slot
        obtain ⟨k, here⟩ := attended.slot b slot
        exact startCall_fresh _ _ here (fresh_call reach at_ rfl here)
    | pausing b => cases idle
  | done outcome => exact absurd rfl (unfinished outcome)

/-- A task goes on with the reply of its call, once there is one. -/
theorem replied_step {pc : Pc} {k : Connection} {f : Fut} {reply : Reply}
    (at_ : s.tasks t = some pc) (awaits : pc.awaits t = some b) (here : s.conns b = some k)
    (call : k.calls t = some f) (done : f.program = .done reply) (ends : Ends pc f.program) :
    ∃ s', s.step (.task t .reply) = some s' := by
  have takes : Takes pc reply := by
    rw [done] at ends
    exact ends
  refine step_of_next at_ ?_
  cases pc with
  | start pc =>
    cases pc with
    | starting plan =>
      obtain rfl := Option.some.inj awaits
      obtain ⟨result, outcome_eq⟩ := Option.isSome_iff_exists.mp takes
      simp only [Pc.next, StartPc.next]
      refine takeReply_goes here call done ?_
      exact ⟨_, congrArg (Option.map _) outcome_eq⟩
    | _ => cases awaits
  | disconnect pc =>
    cases pc with
    | disconnecting b' =>
      obtain rfl := Option.some.inj awaits
      cases reply with
      | disconnect =>
        simp only [Pc.next, DisconnectPc.next]
        exact takeReply_goes here call done ⟨_, by rfl⟩
      | launch | attach | resume | pause => exact takes.elim
    | _ => cases awaits
  | resume pc =>
    cases pc with
    | resuming args b' g =>
      obtain rfl := Option.some.inj awaits
      cases reply with
      | resume result =>
        simp only [Pc.next, ResumePc.next]
        exact takeReply_goes here call done ⟨_, by rfl⟩
      | launch | attach | disconnect | pause => exact takes.elim
    | _ => cases awaits
  | pause pc =>
    cases pc with
    | pausing b' =>
      obtain rfl := Option.some.inj awaits
      cases reply with
      | pause result =>
        simp only [Pc.next, PausePc.next, World.takeReply, here, Option.bind_some]
        obtain ⟨program, await, rx, waiter⟩ := f
        obtain rfl := done
        cases result <;> simp [Connection.finish, call]
      | launch | attach | disconnect | resume => exact takes.elim
    | _ => cases awaits
  | done => cases awaits

/-- The calls that end on their own account: a disconnect, whose waits are bounded, and a launch,
an attach or a resume whose token has fired. -/
def Released (s : ToolServer lldb) (t : Nat) : Pc → Prop
  | .disconnect _ => True
  | .start _ | .resume _ => s.tokens t = true
  | .pause _ | .done _ => False

theorem released_step {pc : Pc} {k : Connection} {f : Fut} (released : Released s t pc)
    (at_ : s.tasks t = some pc) (awaits : pc.awaits t = some b) (here : s.conns b = some k)
    (call : k.calls t = some f) (suspended : f.suspended = true) :
    ∃ choice, (choice = .timeout ∨ choice = .cancelled) ∧
      ∃ s', s.step (.task t choice) = some s' := by
  cases pc with
  | start pc =>
    cases pc with
    | starting plan =>
      obtain rfl := Option.some.inj awaits
      obtain ⟨n, next⟩ := dropCall_suspended (w := s.toWorld)
        (.at (StartPc.cleanupClear plan.cancelMessage)) here call suspended
      have token : s.tokens t = true := released
      refine ⟨.cancelled, .inr rfl, step_of_next at_ ?_⟩
      simp only [Pc.next, StartPc.next, token, if_true, next]
      exact ⟨_, rfl⟩
    | _ => cases awaits
  | disconnect pc =>
    cases pc with
    | disconnecting b' =>
      obtain rfl := Option.some.inj awaits
      obtain ⟨n, next⟩ := dropCall_suspended (w := s.toWorld) (.at DisconnectPc.takeBackend) here
        call suspended
      refine ⟨.timeout, .inl rfl, step_of_next at_ ?_⟩
      simp only [Pc.next, DisconnectPc.next, next]
      exact ⟨_, rfl⟩
    | _ => cases awaits
  | resume pc =>
    cases pc with
    | resuming args b' g =>
      obtain rfl := Option.some.inj awaits
      obtain ⟨n, next⟩ := dropCall_suspended (w := s.toWorld)
        (.done (.error args.resume.timeoutMessage) : Goto ResumePc) here call suspended
      have token : s.tokens t = true := released
      refine ⟨.cancelled, .inr rfl, step_of_next at_ ?_⟩
      simp only [Pc.next, ResumePc.next, token, if_true, next]
      exact ⟨_, rfl⟩
    | _ => cases awaits
  | pause | done => exact released.elim

/-- In every state reached, a call that has not returned can take its next step, or awaits a
reply of its own call that has not come. -/
theorem unfinished_waits {pc : Pc} (reach : Reach ToolServer.step ToolServer.new s)
    (at_ : s.tasks t = some pc) (unfinished : ∀ outcome, pc ≠ .done outcome) :
    (∃ choice s', s.step (.task t choice) = some s') ∨
    ∃ b k f, pc.awaits t = some b ∧ s.conns b = some k ∧ k.calls t = some f ∧
      ∀ reply, f.program ≠ .done reply := by
  cases awaits : pc.awaits t with
  | none =>
    obtain ⟨choice, -, s', taken⟩ := idle_step
      (show Settles (.connectFailed .closed) from .inr ⟨.closed, rfl⟩) reach at_ unfinished awaits
    exact .inl ⟨choice, s', taken⟩
  | some b =>
    have attended := attended_of_reach reach
    obtain ⟨k, here⟩ := attended.used t pc b at_ (uses_of_awaits awaits)
    obtain ⟨f, call, ends⟩ := attended.called t pc b k at_ awaits here
    by_cases finished : ∃ reply, f.program = .done reply
    · obtain ⟨reply, done⟩ := finished
      obtain ⟨s', taken⟩ := replied_step at_ awaits here call done ends
      exact .inl ⟨.reply, s', taken⟩
    · exact .inr ⟨b, k, f, rfl, here, call, fun reply done => finished ⟨reply, done⟩⟩

/-- In every run a tool call takes at most twelve steps, and as long as it has not returned it can
take the next one or awaits a reply of its own call that has not come. -/
theorem call_progress {P : ToolServer lldb → System.Action lldb → Prop}
    {as : List (System.Action lldb)} (run : Run ToolServer.step P ToolServer.new as s) (t : Nat) :
    as.countP (ofTask t) ≤ 12 ∧ ∀ pc, s.tasks t = some pc → (∃ outcome, pc = .done outcome) ∨
      (∃ choice s', s.step (.task t choice) = some s') ∨
      ∃ b k f, pc.awaits t = some b ∧ s.conns b = some k ∧ k.calls t = some f ∧
        ∀ reply, f.program ≠ .done reply := by
  refine ⟨task_steps_le run t, fun pc at_ => ?_⟩
  by_cases finished : ∃ outcome, pc = .done outcome
  · exact .inl finished
  · exact .inr (unfinished_waits ⟨as, run.any⟩ at_ fun outcome eq => finished ⟨outcome, eq⟩)

theorem call_progress_launch : ∃ s : ToolServer lldb, s.backend = some 0 ∧
    (launchCall 0 false).countP (ofTask 0) ≤ 12 ∧
    ∀ pc, s.tasks 0 = some pc → (∃ outcome, pc = .done outcome) ∨
      (∃ choice s', s.step (.task 0 choice) = some s') ∨
      ∃ b k f, pc.awaits 0 = some b ∧ s.conns b = some k ∧ k.calls 0 = some f ∧
        ∀ reply, f.program ≠ .done reply := by
  have eval : (exec ToolServer.step anyStep (ToolServer.new : ToolServer lldb)
      (launchCall 0 false)).map
      (fun s => s.backend) = some (some 0) := by
    decide +kernel
  obtain ⟨s, run, slot⟩ := Option.map_eq_some_iff.mp eval
  exact ⟨s, slot, call_progress (run_of_exec run) 0⟩

/-- What a call does by itself: the steps of its task, where its `connect()` comes back with `back`,
and the polls of its future. -/
def Own (t : Nat) (back : Choice lldb) : System.Action lldb → Prop
  | .task t' choice => t' = t ∧ (choice = .go ∨ choice = .reply ∨ choice = .cancelled ∨
      choice = .timeout ∨ choice = back)
  | .conn _ act => act = .poll t .go
  | _ => False

/-- A poll that the future can make of itself is a step of the server that moves nothing else. -/
theorem poll_step {k k' : Connection} {f f' : Fut} (here : s.conns b = some k)
    (call : k.calls t = some f) (advance : k.advance f .go = some (k', f')) :
    ∃ s', s.step (.conn b (.poll t .go)) = some s' ∧ s'.tasks = s.tasks ∧ s'.tokens = s.tokens ∧
      s'.conns b = some (k'.setCall t (some f')) := by
  refine ⟨{ s with conns := Function.update s.conns b (some (k'.setCall t (some f'))) }, ?_, rfl,
    rfl, Function.update_self ..⟩
  simp only [ToolServer.step, here, Option.bind_some, Connection.act, Connection.poll, call,
    advance,
    Option.map_some]

/-- By its own polls the call comes to its end or to an await, while the tasks stand still. -/
def ComesToRest (s : ToolServer lldb) (t b : Nat) (back : Choice lldb) : Prop :=
  ∃ as s' k' f', (∀ a ∈ as, Own t back a) ∧ Run ToolServer.step anyStep s as s' ∧
    s'.tasks = s.tasks ∧ s'.tokens = s.tokens ∧ s'.conns b = some k' ∧ k'.calls t = some f' ∧
    (f'.suspended = true ∨ ∃ reply, f'.program = .done reply)

/-- The induction is on what is left of the program of the call. -/
theorem comesToRest {k : Connection} {f : Fut} (back : Choice lldb) (here : s.conns b = some k)
    (call : k.calls t = some f) : ComesToRest s t b back := by
  have settled : ∀ {s : ToolServer lldb} {k : Connection} {f : Fut}, s.conns b = some k →
      k.calls t = some f → (f.suspended = true ∨ ∃ reply, f.program = .done reply) →
      ComesToRest s t b back :=
    fun here call ends => ⟨[], _, _, _, nofun, .nil _, rfl, rfl, here, call, ends⟩
  obtain ⟨program, await, rx, waiter⟩ := f
  induction program generalizing s k await rx waiter with
  | done reply => exact settled here call (.inr ⟨reply, rfl⟩)
  | op i next ih =>
    cases await with
    | created => exact settled here call (.inl rfl)
    | writing | awaiting | parked => exact settled here call (.inl rfl)
    | running =>
      -- a poll that goes on to the next operation, or one that suspends the future
      have goes : ∀ (k' : Connection) (r : i.Result) (waiter' : Option Nat),
          k.advance ⟨.op i next, .running, rx, waiter⟩ .go =
            some (k', ⟨next r, .running, rx, waiter'⟩) → ComesToRest s t b back := by
        intro k' r waiter' advance
        obtain ⟨s₁, taken, tasks, tokens, here₁⟩ := poll_step here call advance
        obtain ⟨as, s', k'', f', own, run, tasks', tokens', rest⟩ :=
          ih r here₁ .running rx waiter' (Function.update_self ..)
        exact ⟨.conn b (.poll t .go) :: as, s', k'', f', List.forall_mem_cons.mpr ⟨rfl, own⟩,
          .cons trivial taken run, tasks'.trans tasks, tokens'.trans tokens, rest⟩
      have suspends : ∀ (k' : Connection) (await' : Backend.Adapter.Await),
          k.advance ⟨.op i next, .running, rx, waiter⟩ .go =
            some (k', ⟨.op i next, await', rx, waiter⟩) →
          (⟨.op i next, await', rx, waiter⟩ : Fut).suspended = true →
          ComesToRest s t b back := by
        intro k' await' advance waits
        obtain ⟨s₁, taken, tasks, tokens, here₁⟩ := poll_step here call advance
        exact ⟨[.conn b (.poll t .go)], s₁, _, _, by simp [Own],
          .single trivial taken, tasks, tokens, here₁, Function.update_self .., .inl waits⟩
      cases i with
      | send | sendAsync => exact suspends _ _ rfl rfl
      | recvReply | recvStop | takeChild | waitChild => exact settled here call (.inl rfl)
      | register => exact goes _ () _ rfl
      | startKill => exact goes _ () _ rfl
      | stderr => exact goes _ k.stderr _ rfl
      | waitInitialized =>
        cases fired : k.link.shared.fired with
        | true =>
          refine goes k () waiter ?_
          simp [Connection.advance, Connection.enter, Client.State.Shared.waitInitialized, fired,
            Fut.goOn]
        | false =>
          refine suspends (k.setShared k.link.shared.waitInitialized.2)
            (.parked k.link.shared.initialized.next) ?_ rfl
          simp [Connection.advance, Connection.enter, Client.State.Shared.waitInitialized, fired]

/-- A step of a released call ends it, or leaves it released. -/
theorem released_moves {pc pc' : Pc} {conn : Option (Nat × lldb.Conn)}
    (released : Released s t pc) (move : TaskMoves s t pc pc' conn) :
    (∃ outcome, pc' = .done outcome) ∨ Released (s.goOn t pc pc' conn) t pc' := by
  cases move with
  | start =>
    rcases ofGoto_cases Pc.start _ with ⟨p, eq⟩ | done
    · exact .inr (eq ▸ released)
    · exact .inl done
  | disconnect =>
    rcases ofGoto_cases Pc.disconnect _ with ⟨p, eq⟩ | done
    · exact .inr (eq ▸ trivial)
    · exact .inl done
  | resume =>
    rcases ofGoto_cases Pc.resume _ with ⟨p, eq⟩ | done
    · exact .inr (eq ▸ released)
    · exact .inl done
  | pause => exact released.elim

/-- A released call comes to its next point by itself. -/
theorem released_goes {pc : Pc} {back : Choice lldb} (settles : Settles back)
    (reach : Reach ToolServer.step ToolServer.new s) (at_ : s.tasks t = some pc)
    (released : Released s t pc) : ∃ as s' pc', (∀ a ∈ as, Own t back a) ∧
      Run ToolServer.step anyStep s as s' ∧ s'.tasks t = some pc' ∧ rank pc' < rank pc ∧
      ((∃ outcome, pc' = .done outcome) ∨ Released s' t pc') := by
  have unfinished : ∀ outcome, pc ≠ .done outcome := by
    rintro outcome rfl
    exact released
  -- one step of the task, after polls that have left the tasks where they were
  have goes : ∀ as {s₁ s' choice}, (∀ a ∈ as, Own t back a) → Run ToolServer.step anyStep s as s₁ →
      s₁.tasks = s.tasks → s₁.tokens = s.tokens → s₁.step (.task t choice) = some s' →
      Own t back (.task t choice) → ∃ as s' pc', (∀ a ∈ as, Own t back a) ∧
        Run ToolServer.step anyStep s as s' ∧ s'.tasks t = some pc' ∧ rank pc' < rank pc ∧
        ((∃ outcome, pc' = .done outcome) ∨ Released s' t pc') := by
    intro as s₁ s' choice own run tasks tokens taken mine
    have released₁ : Released s₁ t pc := by
      unfold Released at released ⊢
      rw [tokens]
      exact released
    obtain ⟨pc', conn, move, rfl⟩ := task_step taken (tasks ▸ at_)
    exact ⟨as ++ [.task t choice], _, pc', by
      intro a ha
      rcases List.mem_append.mp ha with old | new
      · exact own a old
      · exact List.mem_singleton.mp new ▸ mine, run.append (.single trivial taken),
      Function.update_self .., rank_moves move, released_moves released₁ move⟩
  cases awaits : pc.awaits t with
  | none =>
    obtain ⟨choice, allowed, s', taken⟩ := idle_step settles reach at_ unfinished awaits
    refine goes [] nofun (.nil s) rfl rfl taken ⟨rfl, ?_⟩
    rcases allowed with rfl | rfl
    · exact .inl rfl
    · exact .inr (.inr (.inr (.inr rfl)))
  | some b =>
    have attended := attended_of_reach reach
    obtain ⟨k, here⟩ := attended.used t pc b at_ (uses_of_awaits awaits)
    obtain ⟨f, call, -⟩ := attended.called t pc b k at_ awaits here
    obtain ⟨as, s₁, k₁, f₁, own, run, tasks, tokens, here₁, call₁, rests⟩ :=
      comesToRest back here call
    have at₁ : s₁.tasks t = some pc := by rw [tasks, at_]
    have released₁ : Released s₁ t pc := by
      unfold Released at released ⊢
      rw [tokens]
      exact released
    rcases rests with suspended | ⟨reply, done⟩
    · obtain ⟨choice, bound, s', taken⟩ :=
        released_step released₁ at₁ awaits here₁ call₁ suspended
      refine goes as own run tasks tokens taken ⟨rfl, ?_⟩
      rcases bound with rfl | rfl
      · exact .inr (.inr (.inr (.inl rfl)))
      · exact .inr (.inr (.inl rfl))
    · obtain ⟨f', call', ends⟩ :=
        (attended_of_reach (reach.run run)).called t pc b k₁ at₁ awaits here₁
      obtain rfl := Option.some.inj (call₁.symm.trans call')
      obtain ⟨s', taken⟩ := replied_step at₁ awaits here₁ call₁ done ends
      exact goes as own run tasks tokens taken ⟨rfl, .inr (.inl rfl)⟩

/-- A disconnect returns whatever the adapter does or leaves undone, and so does a launch, attach,
continue or step whose token has fired: in every state reached its own steps lead it there. -/
theorem released_returns {pc : Pc} {back : Choice lldb} (settles : Settles back)
    (reach : Reach ToolServer.step ToolServer.new s) (at_ : s.tasks t = some pc)
    (released : Released s t pc) : ∃ as s' outcome, (∀ a ∈ as, Own t back a) ∧
      Run ToolServer.step anyStep s as s' ∧ s'.tasks t = some (.done outcome) := by
  obtain ⟨n, bound⟩ : ∃ n, rank pc ≤ n := ⟨_, Nat.le_refl _⟩
  induction n generalizing s pc with
  | zero =>
    obtain ⟨_, _, _, _, _, _, fallen, _⟩ := released_goes settles reach at_ released
    omega
  | succ n ih =>
    obtain ⟨as, s₁, pc₁, own, run, at₁, fallen, ends⟩ := released_goes settles reach at_ released
    rcases ends with ⟨outcome, rfl⟩ | released₁
    · exact ⟨as, s₁, outcome, own, run, at₁⟩
    · obtain ⟨bs, s', outcome, own', run', at'⟩ :=
        ih (reach.run run) at₁ released₁ (by omega)
      refine ⟨as ++ bs, s', outcome, fun a ha => ?_, run.append run', at'⟩
      rcases List.mem_append.mp ha with first | second
      · exact own a first
      · exact own' a second

/-- A launch whose adapter never answers, cancelled by the client. -/
theorem released_returns_launch : ∃ (s s' : ToolServer lldb) (as : List (System.Action lldb))
    (plan : Plan) (outcome : Response.ToolOutcome), s.tasks 0 = some (.start (.starting plan)) ∧
      (∀ a ∈ as, Own 0 (.connectFailed .closed) a) ∧ Run ToolServer.step anyStep s as s' ∧
      s'.tasks 0 = some (.done outcome) := by
  have eval : (exec ToolServer.step anyStep (ToolServer.new : ToolServer lldb)
      (launchCall 0 false ++ write 0 0 ++ [.cancelToken 0])).map (fun s =>
        ((s.tasks 0).map fun pc => (opened pc, pc.awaits 0), s.tokens 0)) =
      some (some (true, some 0), true) := by
    decide +kernel
  obtain ⟨s, run, seen⟩ := Option.map_eq_some_iff.mp eval
  obtain ⟨at_, token⟩ := Prod.mk.inj seen
  obtain ⟨pc, here, looks⟩ := Option.map_eq_some_iff.mp at_
  obtain ⟨isOpen, awaits⟩ := Prod.mk.inj looks
  cases pc with
  | start pc =>
    cases pc with
    | starting plan =>
      obtain ⟨as, s', outcome, own, run', done⟩ := released_returns (.inr ⟨.closed, rfl⟩)
        (reach_of_exec run) here token
      exact ⟨s, s', as, plan, outcome, here, own, run', done⟩
    | _ => cases awaits
  | done outcome => cases awaits
  | disconnect pc | resume pc | pause pc => cases isOpen

end

end LldbDebugMcp.Server.Progress
