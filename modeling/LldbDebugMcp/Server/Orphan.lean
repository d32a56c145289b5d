/- module: LldbDebugMcp/Server/Orphan
   source: crates/mcp-tools/src/handlers/lifecycle.rs, crates/lldb-backend/src/subprocess.rs
   digest: Whether a failed launch or attach leaves its child process behind. -/

import LldbDebugMcp.Server.Disconnect

set_option autoImplicit false
set_option relaxedAutoImplicit false

namespace LldbDebugMcp.Server.Orphan

open LldbDebugMcp.Session.Operation
open LldbDebugMcp.Library.Transition
open LldbDebugMcp.Backend.Adapter (Connection)
open LldbDebugMcp.Backend.Steps (finish_eq)
open LldbDebugMcp.Backend.Child
open LldbDebugMcp.Server.Contract
open LldbDebugMcp.Server.Handler
open LldbDebugMcp.Server.Response (ToolOutcome)
open LldbDebugMcp.Server.Lifecycle
open LldbDebugMcp.Server.Execution
open LldbDebugMcp.Server.System
open LldbDebugMcp.Server.Steps
open LldbDebugMcp.Server.Lldb
open LldbDebugMcp.Server.Disconnect (PastKill disconnecting_step)

variable {s s' : ToolServer lldb} {a : System.Action lldb} {c t : Nat} {k k' : Connection}

/-- The points whose step lets go of the backend in the slot: it is overwritten, cleared or
taken, or the session is reset. -/
def letsGo : Pc → Bool
  | .start (.setBackend _) | .start (.connectClear _) | .start (.cleanupClear _)
  | .start (.connectReset _) | .start (.cleanupReset _)
  | .disconnect .takeBackend | .disconnect .reset => true
  | _ => false

/-- The child of the backend in the slot, if there is one, was killed. -/
def SlotKilled (s : ToolServer lldb) : Prop :=
  ((s.backend.bind s.conns).all fun k : Connection => k.killed) = true

/-- A backend is let go of only once its child was killed. -/
def KilledFirst (s : ToolServer lldb) : System.Action lldb → Prop
  | .task t _ => (s.tasks t).any letsGo = true → SlotKilled s
  | _ => True

instance : (a : System.Action lldb) → Decidable (KilledFirst s a)
  | .task .. => inferInstanceAs (Decidable (_ = true → _ = true))
  | .call .. | .cancelToken _ | .conn .. | .pump .. | .bookkeeping _ => .isTrue trivial

/-- A launch or attach that has failed after its `connect()` leaves no child that was not
killed, and neither does an idle session with no handler in flight. -/
structure NoOrphan (s : ToolServer lldb) : Prop where
  failed : ∀ t e k, s.tasks t = some (.done (.error e)) → s.conns t = some k → k.killed = true
  idle : s.session.state = .idle → Quiet s → ∀ c k, s.conns c = some k → k.killed = true

/-- The points at which the backend of the launch or attach may be in the slot. -/
def stored : Pc → Bool
  | .start (.bindPump _) | .start (.starting _) | .start (.cleanupClear _)
  | .start (.setProgram ..) | .start (.setPid ..) | .start (.readPid ..)
  | .start (.setOutcome ..) | .start (.cacheStopped ..) => true
  | .done (.error _) => false
  | .done _ => true
  | _ => false

/-- The points from which the launch or attach has its final write of the state ahead, or its
cleanup. -/
def unsettled : Pc → Bool
  | .start (.bindPump _) | .start (.starting _) | .start (.cleanupClear _)
  | .start (.setProgram ..) | .start (.setPid ..) | .start (.readPid ..)
  | .start (.setOutcome ..) => true
  | _ => false

/-- A child that was not killed belongs to the backend in the slot, or to one about to be
stored; and while it is in the slot the session is not idle, or not for long. -/
structure Kept (s : ToolServer lldb) : Prop where
  reach : Reach ToolServer.step ToolServer.new s
  owner : ∀ c k, s.conns c = some k → k.killed = true ∨ s.backend = some c ∨
    ∃ plan, s.tasks c = some (.start (.setBackend plan))
  slot : ∀ c, s.backend = some c → (s.tasks c).any stored = true
  active : ∀ c k, s.backend = some c → s.conns c = some k → k.killed = true ∨
    s.session.state ≠ .idle ∨ (s.tasks c).any unsettled = true

theorem noOrphan_of_kept (kept : Kept s) : NoOrphan s where
  failed t e k failed here := by
    rcases kept.owner t k here with killed | slot | ⟨plan, at_⟩
    · exact killed
    · have at_ := kept.slot t slot
      rw [failed] at at_
      cases at_
    · cases failed.symm.trans at_
  idle idle quiet c k here := by
    rcases kept.owner c k here with killed | slot | ⟨plan, at_⟩
    · exact killed
    · rcases kept.active c k slot here with killed | active | busy
      · exact killed
      · exact absurd idle active
      · obtain ⟨pc, at_, busy⟩ := (Option.any_eq_true _ _).mp busy
        obtain ⟨outcome, rfl⟩ := quiet c pc at_
        cases busy
    · obtain ⟨outcome, h⟩ := quiet c _ at_
      cases h

/-- A child that was killed stays so. -/
private theorem killed_step (reach : Reach ToolServer.step ToolServer.new s)
    (taken : s.step a = some s')
    (here : s.conns c = some k) (killed : k.killed = true) (there : s'.conns c = some k') :
    k'.killed = true := by
  obtain ⟨k₁, there', moved⟩ := conn_step reach taken here
  obtain rfl := Option.some.inj (there.symm.trans there')
  rcases moves_of_connMoves moved with rfl | ⟨a, -, taken⟩
  · exact killed
  · exact (child_of_moves (Backend.Steps.moves_of_step taken)).2.1 killed

/-- What a step does to the slot: nothing, or it lets go of the backend in it. -/
private theorem slot_cases (taken : s.step a = some s') :
    s'.backend = s.backend ∨ ∃ t choice pc, a = .task t choice ∧ s.tasks t = some pc ∧
      letsGo pc = true ∧ (s'.backend = none ∨ s'.backend = some t ∧
        ∃ plan, pc = .start (.setBackend plan) ∧
          s'.tasks t = some (.start (.bindPump plan))) := by
  cases moves_of_step taken with
  | call | cancelToken | conn | pump | bookkeeping => exact .inl rfl
  | @task t choice pc pc' conn here move =>
    cases move with
    | start move =>
      cases move with
      | setBackend =>
        exact .inr ⟨t, choice, _, rfl, here, rfl, .inr ⟨rfl, _, rfl, Function.update_self _ _ _⟩⟩
      | connectClear | cleanupClear => exact .inr ⟨t, choice, _, rfl, here, rfl, .inl rfl⟩
      | _ => exact .inl rfl
    | disconnect move =>
      cases move with
      | takeBackend => exact .inr ⟨t, choice, _, rfl, here, rfl, .inl rfl⟩
      | _ => exact .inl rfl
    | resume | pause => exact .inl rfl

/-- The child in the slot was killed when its backend is let go of. -/
private theorem killed_of_letsGo {choice : Choice lldb} {pc : Pc}
    (first : KilledFirst s (.task t choice)) (at_ : s.tasks t = some pc)
    (goes : letsGo pc = true) (slot : s.backend = some c) (here : s.conns c = some k) :
    k.killed = true := by
  have killed : SlotKilled s := first (by simpa only [at_, Option.any_some] using goes)
  simpa only [SlotKilled, slot, Option.bind_some, here, Option.all_some] using killed

private theorem letsGo_of_resets {choice : Choice lldb} (resets : Resets s (.task t choice)) :
    ∃ pc, s.tasks t = some pc ∧ letsGo pc = true := by
  obtain ⟨pc, here, operation⟩ := Option.bind_eq_some_iff.mp (resets_task.mp resets)
  refine ⟨pc, here, ?_⟩
  cases pc with
  | start pc =>
    cases pc with
    | connectReset | cleanupReset => rfl
    | setPid plan outcome target => cases target <;> cases operation
    | _ => cases operation
  | disconnect pc => cases pc <;> first | rfl | cases operation
  | resume pc => cases pc <;> cases operation
  | pause | done => cases operation

private theorem stored_moves {S : Seam} {s : ToolServer S} {pc pc' : Pc}
    {conn : Option (Nat × S.Conn)} (move : TaskMoves s t pc pc' conn) (old : stored pc = true) :
    stored pc' = true ∨ pc.slot t s.backend = none := by
  cases move with
  | start move =>
    cases move with
    | cleanupClear => exact .inr rfl
    | @running _ _ outcome success | @exited _ _ _ outcome success
    | @cacheStopped _ _ _ outcome success =>
      cases outcome with
      | error e => exact absurd rfl (success e)
      | json | text => exact .inl rfl
    | bindPump | succeeded | failed | cancelled | setProgram | setPid | readPid | stopped =>
      exact .inl rfl
    | _ => cases old
  | disconnect | resume | pause => cases old

private theorem unsettled_moves {S : Seam} {s : ToolServer S} {pc pc' : Pc}
    {conn : Option (Nat × S.Conn)} (move : TaskMoves s t pc pc' conn) (old : unsettled pc = true) :
    unsettled pc' = true ∨ (applyOption s.session pc.operation).state ≠ .idle ∨
      pc.slot t s.backend = none := by
  cases move with
  | start move =>
    cases move with
    | cleanupClear => exact .inr (.inr rfl)
    | running | exited | stopped => exact .inr (.inl fun h => by cases h)
    | bindPump | succeeded | failed | cancelled | setProgram | setPid | readPid =>
      exact .inl rfl
    | _ => cases old
  | disconnect | resume | pause => cases old

private theorem owner_step (kept : Kept s) (first : KilledFirst s a) (taken : s.step a = some s')
    (there : s'.conns c = some k') :
    k'.killed = true ∨ s'.backend = some c ∨
      ∃ plan, s'.tasks c = some (.start (.setBackend plan)) := by
  rcases conns_cases taken there with ⟨-, plan, -, -, -, at_, -⟩ | ⟨k, here, -⟩
  · exact .inr (.inr ⟨plan, at_⟩)
  · rcases kept.owner c k here with killed | slot | ⟨plan, at_⟩
    · exact .inl (killed_step kept.reach taken here killed there)
    · rcases slot_cases taken with same | ⟨t, choice, pc, rfl, at_, goes, -⟩
      · exact .inr (.inl (same.trans slot))
      · have killed := killed_of_letsGo first at_ goes slot here
        exact .inl (killed_step kept.reach taken here killed there)
    · by_cases self : ∃ choice, a = .task c choice
      · obtain ⟨choice, rfl⟩ := self
        obtain ⟨pc', conn, -, rfl⟩ := task_step taken at_
        exact .inr (.inl rfl)
      · exact .inr (.inr ⟨plan, task_stays taken at_ fun choice h => self ⟨choice, h⟩⟩)

private theorem slot_step (kept : Kept s) (taken : s.step a = some s')
    (slot' : s'.backend = some c) : (s'.tasks c).any stored = true := by
  rcases slot_cases taken with same | ⟨t, choice, pc, rfl, -, -, none | ⟨mine, plan, -, at_⟩⟩
  · obtain ⟨pc, at_, old⟩ := (Option.any_eq_true _ _).mp (kept.slot c (same.symm.trans slot'))
    by_cases self : ∃ choice, a = .task c choice
    · obtain ⟨choice, rfl⟩ := self
      obtain ⟨pc', conn, move, rfl⟩ := task_step taken at_
      rcases stored_moves move old with new | none
      · simpa only [goOn_tasks, Function.update_self, Option.any_some] using new
      · cases none.symm.trans slot'
    · rw [task_stays taken at_ fun choice h => self ⟨choice, h⟩]
      exact old
  · cases none.symm.trans slot'
  · obtain rfl := Option.some.inj (mine.symm.trans slot')
    rw [at_]
    rfl

private theorem active_step (kept : Kept s) (first : KilledFirst s a) (taken : s.step a = some s')
    (slot' : s'.backend = some c) (there : s'.conns c = some k') :
    k'.killed = true ∨ s'.session.state ≠ .idle ∨ (s'.tasks c).any unsettled = true := by
  rcases slot_cases taken with same | ⟨t, choice, pc, rfl, -, -, none | ⟨mine, plan, -, at_⟩⟩
  · have slot := same.symm.trans slot'
    rcases conns_cases taken there with ⟨-, plan, -, -, at_, -⟩ | ⟨k, here, -⟩
    · have old := kept.slot c slot
      rw [at_] at old
      cases old
    · rcases kept.active c k slot here with killed | active | busy
      · exact .inl (killed_step kept.reach taken here killed there)
      · by_cases resets : Resets s a
        · cases a with
          | task t choice =>
            obtain ⟨pc, at_, goes⟩ := letsGo_of_resets resets
            have killed := killed_of_letsGo first at_ goes slot here
            exact .inl (killed_step kept.reach taken here killed there)
          | _ => exact absurd resets id
        · exact .inr (.inl (step_not_idle taken resets active))
      · obtain ⟨pc, at_, old⟩ := (Option.any_eq_true _ _).mp busy
        by_cases self : ∃ choice, a = .task c choice
        · obtain ⟨choice, rfl⟩ := self
          obtain ⟨pc', conn, move, rfl⟩ := task_step taken at_
          rcases unsettled_moves move old with new | active | none
          · refine .inr (.inr ?_)
            simpa only [goOn_tasks, Function.update_self, Option.any_some] using new
          · exact .inr (.inl active)
          · cases none.symm.trans slot'
        · rw [task_stays taken at_ fun choice h => self ⟨choice, h⟩]
          exact .inr (.inr old)
  · cases none.symm.trans slot'
  · obtain rfl := Option.some.inj (mine.symm.trans slot')
    rw [at_]
    exact .inr (.inr rfl)

private theorem Kept.step (kept : Kept s) (first : KilledFirst s a) (taken : s.step a = some s') :
    Kept s' where
  reach := kept.reach.next taken
  owner _ _ there := owner_step kept first taken there
  slot _ slot := slot_step kept taken slot
  active _ _ slot there := active_step kept first taken slot there

private theorem kept_new : Kept ToolServer.new where
  reach := .start _
  owner c k h := by cases h
  slot c h := by cases h
  active c k h := by cases h

/-- In every run in which a backend is let go of only once its child was killed, no launch or
attach that fails or is cancelled, and no idle session, leaves a child behind. -/
theorem failed_start_kills {as : List (System.Action lldb)}
    (run : Run ToolServer.step KilledFirst ToolServer.new as s) : NoOrphan s := by
  refine noOrphan_of_kept (run.keeps (I := Kept) ?_ kept_new)
  exact fun s a s' kept first taken => kept.step first taken

/-! Schedules in which a backend is let go of only once its child was killed. -/

/-- The points from which a handler is going to let go of the backend in the slot. -/
def leaving : Pc → Bool
  | .start (.connectReset _) | .start (.connectResetOutput _) | .start (.connectClear _)
  | .start (.cleanupClear _) | .start (.cleanupReset _)
  | .disconnect .takeBackend | .disconnect .reset => true
  | _ => false

/-- The call of a disconnect is past its kill when it ends. -/
def EndsPastKill (k : Connection) (t : Nat) : Choice lldb → Prop
  | .timeout => PastKill k t
  | _ => ∀ t', ¬ Killing k t'

/-- A step of a task that is in time: a backend is stored in an empty slot, while no handler is
going to let go of one; a launch or attach fails, or is cancelled, only when no live child is in
the slot; and a disconnect ends its call past the kill, with the slot as it has read it. -/
structure TaskInTime (s : ToolServer lldb) (t : Nat) (choice : Choice lldb) : Prop where
  stores : ∀ plan, s.tasks t = some (.start (.setBackend plan)) →
    s.backend = none ∧ ∀ t' pc, s.tasks t' = some pc → leaving pc = false
  fails : ∀ s' pc pc', s.step (.task t choice) = some s' → s.tasks t = some (.start pc) →
    s'.tasks t = some (.start pc') → leaving (.start pc) = false → leaving (.start pc') = true →
    SlotKilled s
  disconnects : ∀ b k, s.tasks t = some (.disconnect (.disconnecting b)) → s.conns b = some k →
    (∀ c, s.backend = some c → c = b) ∧ EndsPastKill k t choice

def Timely (s : ToolServer lldb) : System.Action lldb → Prop
  | .task t choice => TaskInTime s t choice
  | _ => True

/-- Handlers are going to let go only of a backend whose child was killed. -/
structure Ready (s : ToolServer lldb) : Prop where
  kept : Kept s
  killed : ∀ t pc, s.tasks t = some pc → leaving pc = true → SlotKilled s

private theorem killedFirst_of_ready (ready : Ready s) (timely : Timely s a) : KilledFirst s a := by
  cases a with
  | task t choice =>
    intro goes
    obtain ⟨pc, here, goes⟩ := (Option.any_eq_true _ _).mp goes
    by_cases leaves : leaving pc = true
    · exact ready.killed t pc here leaves
    · cases pc with
      | start pc =>
        cases pc with
        | setBackend plan =>
          obtain ⟨empty, -⟩ := timely.stores plan here
          simp [SlotKilled, empty]
        | connectReset | connectClear | cleanupClear | cleanupReset => exact absurd rfl leaves
        | _ => cases goes
      | disconnect pc =>
        cases pc with
        | takeBackend | reset => exact absurd rfl leaves
        | _ => cases goes
      | resume | pause | done => cases goes
  | _ => trivial

/-- Nothing but the store of a backend puts a live child into the slot. -/
private theorem slotKilled_step (kept : Kept s) (killed : SlotKilled s)
    (taken : s.step a = some s')
    (stored : ∀ t choice plan, a = .task t choice → s.tasks t ≠ some (.start (.setBackend plan))) :
    SlotKilled s' := by
  rw [SlotKilled, Option.all_eq_true]
  intro k' there
  obtain ⟨c, slot', there⟩ := Option.bind_eq_some_iff.mp there
  rcases slot_cases taken with same | ⟨t, choice, pc, rfl, at_, -, none | ⟨-, plan, rfl, -⟩⟩
  · have slot := same.symm.trans slot'
    rcases conns_cases taken there with ⟨-, plan, -, -, at_, -⟩ | ⟨k, here, -⟩
    · have old := kept.slot c slot
      rw [at_] at old
      cases old
    · have dead : k.killed = true := by
        simpa only [SlotKilled, slot, Option.bind_some, here, Option.all_some] using killed
      exact killed_step kept.reach taken here dead there
  · cases none.symm.trans slot'
  · exact absurd at_ (stored t choice plan rfl)

/-- The disconnect that goes on to take the backend finds its child killed. -/
private theorem slotKilled_of_disconnected {b : Nat} {choice : Choice lldb} (kept : Kept s)
    (inTime : TaskInTime s t choice) (at_ : s.tasks t = some (.disconnect (.disconnecting b)))
    (taken : s.step (.task t choice) = some s') : SlotKilled s := by
  obtain ⟨k, k', here, -, ended⟩ := disconnecting_step at_ taken
  obtain ⟨same, past⟩ := inTime.disconnects b k at_ here
  have served := conn_served kept.reach here
  have killed : k.killed = true := by
    rcases ended with ⟨rfl, finished⟩ | ⟨rfl, -⟩
    · obtain ⟨f, call, done, -⟩ := finish_eq finished
      refine (killed_of_disconnected served call done).resolve_right ?_
      rintro ⟨t', killing⟩
      exact past t' killing
    · obtain ⟨f, next, call, waits⟩ := past
      exact killed_of_waiting served call waits
  rw [SlotKilled, Option.all_eq_true]
  intro k₀ there
  obtain ⟨c, slot, there⟩ := Option.bind_eq_some_iff.mp there
  obtain rfl := same c slot
  obtain rfl := Option.some.inj (here.symm.trans there)
  exact killed

/-- The step with which a handler comes to such a point. -/
private theorem slotKilled_of_leaving {choice : Choice lldb} {pc pc' : Pc} (ready : Ready s)
    (inTime : TaskInTime s t choice) (taken : s.step (.task t choice) = some s')
    (here : s.tasks t = some pc) (there : s'.tasks t = some pc') (leaves : leaving pc' = true) :
    SlotKilled s := by
  by_cases old : leaving pc = true
  · exact ready.killed t pc here old
  · have fresh : leaving pc = false := Bool.not_eq_true _ ▸ old
    obtain ⟨pc₁, conn, move, after⟩ := task_step taken here
    have same : pc₁ = pc' := by
      rw [after, goOn_tasks, Function.update_self] at there
      exact Option.some.inj there
    subst same
    cases move with
    | @start pc goto _ move =>
      cases goto with
      | «at» pc' => exact inTime.fails s' pc pc' taken here there fresh leaves
      | done outcome => cases leaves
    | disconnect move =>
      cases move with
      | finished | timedOut => exact slotKilled_of_disconnected ready.kept inTime here taken
      | noBackend empty => simp [SlotKilled, show s.backend = none from empty]
      | takeBackend => exact absurd rfl old
      | _ => cases leaves
    | @resume _ goto | @pause _ goto => cases goto <;> cases leaves

private theorem Ready.step (ready : Ready s) (timely : Timely s a) (taken : s.step a = some s') :
    Ready s' where
  kept := ready.kept.step (killedFirst_of_ready ready timely) taken
  killed t pc there leaves := by
    have others : ∀ t' choice plan, a = .task t' choice →
        s.tasks t' ≠ some (.start (.setBackend plan)) := by
      rintro t' choice plan rfl stores
      obtain ⟨-, none⟩ := timely.stores plan stores
      rcases tasks_cases taken there with
        old | ⟨tool, -, rfl⟩ | ⟨choice, pc₀, conn, eq, at_, move, -⟩
      · cases leaves.symm.trans (none t pc old)
      · cases tool <;> cases leaves
      · cases eq
        obtain rfl := Option.some.inj (stores.symm.trans at_)
        cases move with
        | start move =>
          cases move
          cases leaves
    rcases tasks_cases taken there with old | ⟨tool, -, rfl⟩ | ⟨choice, pc₀, conn, rfl, at_, -, -⟩
    · exact slotKilled_step ready.kept (ready.killed t pc old leaves) taken others
    · cases tool <;> cases leaves
    · exact slotKilled_step ready.kept (slotKilled_of_leaving ready timely taken at_ there leaves)
        taken others

/-- In a run whose steps are all in time, a backend is let go of only once its child was killed. -/
theorem killedFirst_of_timely {as : List (System.Action lldb)}
    (run : Run ToolServer.step Timely ToolServer.new as s) :
    Run ToolServer.step KilledFirst ToolServer.new as s :=
  run.strengthen (I := Ready) (fun _ _ _ ready timely taken => ready.step timely taken)
    (fun _ _ _ ready timely _ => killedFirst_of_ready ready timely)
    ⟨kept_new, fun t pc at_ => by cases at_⟩

/-- A launch whose initialize request is written, a disconnect that kills its child, and the end of
the connection, on which the launch fails. -/
def launchDisconnected : List (System.Action lldb) :=
  launchCall 0 false ++ write 0 0 ++ disconnected 1 0 2 ++
    [.conn 0 .readError, poll 0 0, .task 0 .reply] ++ proceed 0 3

theorem failed_start_kills_disconnect : ∃ (s : ToolServer lldb) (e : String),
    s.tasks 0 = some (.done (.error e)) ∧ s.session.state = .idle ∧ (s.conns 0).isSome = true ∧
    NoOrphan s := by
  have eval : ((exec ToolServer.step KilledFirst (ToolServer.new : ToolServer lldb)
      launchDisconnected).map
      fun s => (failedTask s 0, s.session.state, (s.conns 0).isSome)) =
      some (true, .idle, true) := by
    decide +kernel
  obtain ⟨s, executed, eq⟩ := Option.map_eq_some_iff.mp eval
  simp only [Prod.mk.injEq] at eq
  obtain ⟨e, failed⟩ := failedTask_eq eq.1
  exact ⟨s, e, failed, eq.2.1, eq.2.2, failed_start_kills (run_of_exec executed)⟩

/-- The first request of the handshake cannot be written, and the launch fails. -/
def brokenLaunch : List (System.Action lldb) :=
  launchCall 0 false ++
    [poll 0 0, .conn 0 (.poll 0 (.refuse "broken pipe")), .task 0 .reply] ++ proceed 0 3

private theorem broken_launch : ∃ (s : ToolServer lldb) (e : String) (k : Connection),
    Reach ToolServer.step ToolServer.new s ∧ s.tasks 0 = some (.done (.error e)) ∧
    s.session.state = .idle ∧ Quiet s ∧ s.conns 0 = some k ∧ k.killed = false := by
  have eval : ((exec ToolServer.step anyStep (ToolServer.new : ToolServer lldb)
      brokenLaunch).map fun s =>
      ((failedTask s 0, s.session.state), (s.conns 0).map (·.killed))) =
      some ((true, .idle), some false) := by
    decide +kernel
  obtain ⟨s, executed, eq⟩ := Option.map_eq_some_iff.mp eval
  simp only [Prod.mk.injEq] at eq
  obtain ⟨⟨failed, idle⟩, child⟩ := eq
  obtain ⟨e, failed⟩ := failedTask_eq failed
  obtain ⟨k, here, alive⟩ := Option.map_eq_some_iff.mp child
  exact ⟨s, e, k, reach_of_exec executed, failed, idle,
    quiet_of_onlyFirst (run_of_exec executed) (by decide) failed, here, alive⟩

/-- A launch whose handshake fails returns, and leaves the session idle, with the child of its
connection not killed. -/
theorem failed_start_leaves_child :
    (¬ ∀ s : ToolServer lldb, Reach ToolServer.step ToolServer.new s → ∀ t e k,
      s.tasks t = some (.done (.error e)) → s.conns t = some k → k.killed = true) ∧
    ¬ ∀ s : ToolServer lldb, Reach ToolServer.step ToolServer.new s →
      s.session.state = .idle → Quiet s →
      ∀ c k, s.conns c = some k → k.killed = true := by
  obtain ⟨s, e, k, reach, failed, idle, quiet, here, alive⟩ := broken_launch
  refine ⟨fun kills => ?_, fun kills => ?_⟩
  · cases alive.symm.trans (kills s reach 0 e k failed here)
  · cases alive.symm.trans (kills s reach idle quiet 0 k here)

end LldbDebugMcp.Server.Orphan
