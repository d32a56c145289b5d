/- module: LldbDebugMcp/Server/Disconnect
   source: crates/mcp-tools/src/handlers/lifecycle.rs, crates/lldb-backend/src/backend.rs
   digest: Whether the child process is gone when a disconnect returns. -/

import LldbDebugMcp.Backend.Child
import LldbDebugMcp.Server.Lldb

set_option autoImplicit false
set_option relaxedAutoImplicit false

namespace LldbDebugMcp.Server.Disconnect

open LldbDebugMcp.Library.Effect
open LldbDebugMcp.Library.Transition
open LldbDebugMcp.Backend.Operations
open LldbDebugMcp.Backend.Adapter (Connection)
open LldbDebugMcp.Backend.Steps (Served finish_eq cancel_eq)
open LldbDebugMcp.Backend.Child
open LldbDebugMcp.Server.Contract
open LldbDebugMcp.Server.Response (ToolOutcome)
open LldbDebugMcp.Server.Handler
open LldbDebugMcp.Server.Lifecycle
open LldbDebugMcp.Server.System
open LldbDebugMcp.Server.Steps
open LldbDebugMcp.Server.Lldb

variable {s s' s₁ s₂ : ToolServer lldb} {a : System.Action lldb} {c d : Nat} {k k' : Connection}

/-- The child of the connection was killed, or it has exited. -/
def Dead (k : Connection) : Prop := k.killed = true ∨ k.exited = true

def Gone (s : ToolServer lldb) (c : Nat) : Prop := ∃ k, s.conns c = some k ∧ Dead k

/-- The connection belongs to the session: it is in the slot, or a launch or attach in flight
opens it. -/
def Held (s : ToolServer lldb) (c : Nat) : Prop :=
  s.backend = some c ∨ ∃ pc, s.tasks c = some (.start pc)

/-- The `connect()` of the launch or attach does not succeed in this step. -/
def NotConnects (c : Nat) (_ : ToolServer lldb) : System.Action lldb → Prop
  | .task t (.connected _) => t ≠ c
  | _ => True

/-- The child of the connection is one that a disconnect can kill, which reads the slot in the
first state and takes its later steps among the actions: it is the one in the slot, or dead
already, or it does not come to be. -/
def Covered (c : Nat) (s₁ s₂ : ToolServer lldb) (as : List (System.Action lldb))
    (s' : ToolServer lldb) : Prop :=
  s₁.backend = some c ∨ Gone s₁ c ∨ s₂.conns c = none ∧ Run ToolServer.step (NotConnects c) s₂ as s'

/-- The call on the connection is past its `start_kill`. -/
def PastKill (k : Connection) (t : Nat) : Prop :=
  ∃ f next, k.calls t = some f ∧ f.program = .op .waitChild next

/-- The bound of the disconnect expires only past the kill, unless the child is dead anyway;
and its call ends only when no other call has taken the child and not killed it yet. -/
def InTime (d : Nat) (s : ToolServer lldb) : System.Action lldb → Prop
  | .task t choice => t = d → ∀ b k, s.tasks d = some (.disconnect (.disconnecting b)) →
      s.conns b = some k →
      match choice with
      | .timeout => PastKill k d ∨ Dead k
      | _ => Dead k ∨ ∀ t', ¬ Killing k t'
  | _ => True

theorem dead_moves (dead : Dead k) (moved : ConnMoves (S := lldb) k k') : Dead k' := by
  rcases moves_of_connMoves moved with rfl | ⟨a, -, taken⟩
  · exact dead
  · obtain ⟨-, killed, exited⟩ := child_of_moves (Backend.Steps.moves_of_step taken)
    exact dead.imp killed exited

/-- A child that is dead stays dead. -/
theorem gone_step (reach : Reach ToolServer.step ToolServer.new s) (taken : s.step a = some s')
    (gone : Gone s c) : Gone s' c := by
  obtain ⟨k, here, dead⟩ := gone
  obtain ⟨k', there, moved⟩ := conn_step reach taken here
  exact ⟨k', there, dead_moves dead moved⟩

/-- How the call of a disconnect ends: it is done, or its bound expires. -/
theorem disconnecting_step {choice : Choice lldb}
    (at_ : s.tasks d = some (.disconnect (.disconnecting c)))
    (taken : s.step (.task d choice) = some s') :
    ∃ k k', s.conns c = some k ∧ s'.conns c = some k' ∧
      ((choice = .reply ∧ k.finish d = some (.disconnect, k')) ∨
        (choice = .timeout ∧ k.cancel d = some k')) := by
  obtain ⟨n, next, rfl⟩ := disconnect_next taken at_
  cases choice with
  | reply =>
    simp only [DisconnectPc.next] at next
    obtain ⟨k, k', reply, goto, there, finished, hg, rfl⟩ := World.takeReply_eq next
    split at hg
    · exact ⟨k, k', there, Function.update_self _ _ _, .inl ⟨rfl, finished⟩⟩
    · cases hg
  | timeout =>
    simp only [DisconnectPc.next] at next
    obtain ⟨k, k', there, dropped, rfl⟩ := World.dropCall_eq next
    exact ⟨k, k', there, Function.update_self _ _ _, .inr ⟨rfl, dropped⟩⟩
  | go | connected | connectFailed | cancelled =>
    simp only [DisconnectPc.next, reduceCtorEq] at next

/-- The child is dead when the call of the disconnect ends in time. -/
private theorem dead_of_ended {choice : Choice lldb} (served : Served k)
    (inTime : match choice with
      | .timeout => PastKill k d ∨ Dead k
      | _ => Dead k ∨ ∀ t', ¬ Killing k t')
    (ended : (choice = .reply ∧ k.finish d = some (.disconnect, k')) ∨
      (choice = .timeout ∧ k.cancel d = some k')) : Dead k := by
  rcases ended with ⟨rfl, finished⟩ | ⟨rfl, -⟩
  · rcases inTime with dead | alone
    · exact dead
    · obtain ⟨f, here, done, -⟩ := finish_eq finished
      rcases killed_of_disconnected served here done with killed | ⟨t', killing⟩
      · exact .inl killed
      · exact absurd killing (alone t')
  · rcases inTime with ⟨f, next, here, at_⟩ | dead
    · exact .inl (killed_of_waiting served here at_)
    · exact dead

/-- The disconnect has begun its call on the connection, or the child is dead. -/
private def Underway (d c : Nat) (s : ToolServer lldb) : Prop :=
  Reach ToolServer.step ToolServer.new s ∧
  (s.tasks d = some (.disconnect (.disconnecting c)) ∨ Gone s c)

private theorem underway_step (underway : Underway d c s) (inTime : InTime d s a)
    (taken : s.step a = some s') : Underway d c s' := by
  obtain ⟨reach, at_ | gone⟩ := underway
  · refine ⟨reach.next taken, ?_⟩
    by_cases self : ∃ choice, a = .task d choice
    · obtain ⟨choice, rfl⟩ := self
      obtain ⟨k, k', here, -, ended⟩ := disconnecting_step at_ taken
      have dead := dead_of_ended (conn_served reach here) (inTime rfl c k at_ here) ended
      exact .inr (gone_step reach taken ⟨k, here, dead⟩)
    · exact .inl (task_stays taken at_ fun choice h => self ⟨choice, h⟩)
  · exact ⟨reach.next taken, .inr (gone_step reach taken gone)⟩

private theorem connected_of_opened {choice : Choice lldb} {plan : Plan}
    (at_ : s.tasks c = some (.start (.connecting plan)))
    (taken : s.step (.task c choice) = some s')
    (opened : s'.tasks c = some (.start (.setBackend plan))) :
    ∃ conf, choice = .connected conf := by
  obtain ⟨n, next, rfl⟩ := start_next taken at_
  cases choice with
  | connected conf => exact ⟨conf, rfl⟩
  | connectFailed e =>
    simp only [StartPc.next, goTo, Option.some.injEq] at next
    subst next
    cases (Function.update_self (f := s.tasks) c _).symm.trans opened
  | go | reply | cancelled | timeout => simp only [StartPc.next, reduceCtorEq] at next

private theorem unopened_step (unopened : s.conns c = none) (still : NotConnects c s a)
    (taken : s.step a = some s') : s'.conns c = none := by
  rw [Option.eq_none_iff_forall_ne_some]
  intro k here
  rcases conns_cases taken here with ⟨choice, plan, -, rfl, at_, opened, -⟩ | ⟨k₀, old, -⟩
  · obtain ⟨conf, rfl⟩ := connected_of_opened at_ taken opened
    exact still rfl
  · cases unopened.symm.trans old

/-- When a disconnect returns, the child of every connection of the session that it can kill
is dead, provided that its call ended in time. -/
theorem disconnect_kills {terminate : Bool} {as : List (System.Action lldb)}
    {outcome : ToolOutcome} (reach : Reach ToolServer.step ToolServer.new s₁)
    (reads : s₁.tasks d = some (.disconnect (.currentBackend terminate)))
    (begun : s₁.step (.task d .go) = some s₂) (run : Run ToolServer.step (InTime d) s₂ as s')
    (returned : s'.tasks d = some (.done outcome)) :
    ∀ c, Held s₁ c → Covered c s₁ s₂ as s' → ∀ k, s'.conns c = some k → Dead k := by
  intro c _ covered k here
  have of_start : Underway d c s₂ → Dead k := by
    intro start
    obtain ⟨-, at_ | ⟨k', here', dead⟩⟩ := run.keeps (I := Underway d c)
      (fun _ _ _ underway inTime taken => underway_step underway inTime taken) start
    · cases returned.symm.trans at_
    · obtain rfl := Option.some.inj (here.symm.trans here')
      exact dead
  rcases covered with slot | gone | ⟨unopened, still⟩
  · refine of_start ⟨reach.next begun, ?_⟩
    obtain ⟨pc', conn, move, rfl⟩ := task_step begun reads
    cases move with
    | disconnect move =>
      cases move with
      | noBackend empty => cases slot.symm.trans empty
      | begun slot' =>
        obtain rfl := Option.some.inj (slot.symm.trans slot')
        exact .inl (Function.update_self _ _ _)
  · exact of_start ⟨reach.next begun, .inr (gone_step reach begun gone)⟩
  · have none := still.keeps (I := fun s => s.conns c = none)
      (fun _ _ _ unopened still taken => unopened_step unopened still taken) unopened
    cases none.symm.trans here

/-- A launch that is running, and a disconnect that is about to read the slot. -/
def runningSession : List (System.Action lldb) :=
  launchCall 0 false ++ handshake 0 false ++ launchRunning 0 ++ [.call 1 (.disconnect true)] ++
    proceed 1 1

/-- The adapter answers the request of the disconnect, and the child exits once it is killed. -/
def answered : List (System.Action lldb) :=
  exchange 0 1 5 ++ [poll 0 1, poll 0 1, .conn 0 .childExit, poll 0 1, .task 1 .reply] ++
    proceed 1 3

/-- The child is dead already when the call of the disconnect ends. -/
private def DeadBefore (d : Nat) (s : ToolServer lldb) : System.Action lldb → Prop
  | .task t _ => t = d → ((s.tasks d).all fun
      | .disconnect (.disconnecting b) => (s.conns b).all fun k => k.killed || k.exited
      | _ => true) = true
  | _ => True

private instance : (a : System.Action lldb) → Decidable (DeadBefore d s a)
  | .task .. => inferInstanceAs (Decidable (_ → _ = true))
  | .call .. | .cancelToken _ | .conn .. | .pump .. | .bookkeeping _ => .isTrue trivial

private theorem inTime_of_dead (before : DeadBefore d s a) : InTime d s a := by
  cases a with
  | task t choice =>
    intro self b k at_ here
    have dead := before self
    simp only [at_, Option.all_some, here, Bool.or_eq_true] at dead
    cases choice with
    | timeout => exact .inr dead
    | _ => exact .inl dead
  | _ => trivial

/-- The request of the disconnect is written and never answered, until its bound expires. -/
def neverAnswered : List (System.Action lldb) := write 0 1 ++ [.task 1 .timeout] ++ proceed 1 3

/-- The task is a disconnect about to read the slot. -/
def readsSlot (s : ToolServer lldb) (t : Nat) : Bool :=
  (s.tasks t).any fun
    | .disconnect (.currentBackend _) => true
    | _ => false

private theorem readsSlot_eq (h : readsSlot s d = true) :
    ∃ terminate, s.tasks d = some (.disconnect (.currentBackend terminate)) := by
  obtain ⟨pc, here, h⟩ := (Option.any_eq_true _ _).mp h
  split at h
  · exact ⟨_, here⟩
  · cases h

private theorem unanswered : ∃ (s₁ s₂ s' : ToolServer lldb) (terminate : Bool)
    (outcome : ToolOutcome)
    (k : Connection), Reach ToolServer.step ToolServer.new s₁ ∧
    s₁.tasks 1 = some (.disconnect (.currentBackend terminate)) ∧ s₁.backend = some 0 ∧
    s₁.step (.task 1 .go) = some s₂ ∧ Run ToolServer.step anyStep s₂ neverAnswered s' ∧
    s'.tasks 1 = some (.done outcome) ∧ s'.conns 0 = some k ∧ ¬ Dead k := by
  have eval : ((exec ToolServer.step anyStep (ToolServer.new : ToolServer lldb)
      runningSession).bind fun s₁ =>
      (s₁.step (.task 1 .go)).bind fun s₂ =>
        (exec ToolServer.step anyStep s₂ neverAnswered).map fun s' =>
          ((readsSlot s₁ 1, s₁.backend), returned s' 1,
            (s'.conns 0).map fun k => (k.killed, k.exited))) =
      some ((true, some 0), true, some (false, false)) := by
    decide +kernel
  obtain ⟨s₁, first, rest⟩ := Option.bind_eq_some_iff.mp eval
  obtain ⟨s₂, begun, rest⟩ := Option.bind_eq_some_iff.mp rest
  obtain ⟨s', second, eq⟩ := Option.map_eq_some_iff.mp rest
  simp only [Prod.mk.injEq] at eq
  obtain ⟨⟨reads, slot⟩, done, child⟩ := eq
  obtain ⟨terminate, reads⟩ := readsSlot_eq reads
  obtain ⟨outcome, done⟩ := returned_eq done
  obtain ⟨k, here, alive⟩ := Option.map_eq_some_iff.mp child
  simp only [Prod.mk.injEq] at alive
  exact ⟨s₁, s₂, s', terminate, outcome, k, reach_of_exec first, reads, slot, begun,
    run_of_exec second, done, here, by simp [Dead, alive.1, alive.2]⟩

theorem disconnect_kills_answered : ∃ (s₁ s' : ToolServer lldb) (outcome : ToolOutcome),
    Reach ToolServer.step ToolServer.new s₁ ∧ s₁.backend = some 0 ∧
    s'.tasks 1 = some (.done outcome) ∧ ∀ k, s'.conns 0 = some k → Dead k := by
  have eval : ((exec ToolServer.step anyStep (ToolServer.new : ToolServer lldb)
      runningSession).bind fun s₁ =>
      (s₁.step (.task 1 .go)).bind fun s₂ =>
        (exec ToolServer.step (DeadBefore 1) s₂ answered).map fun s' =>
          ((readsSlot s₁ 1, s₁.backend), returned s' 1)) = some ((true, some 0), true) := by
    decide +kernel
  obtain ⟨s₁, first, rest⟩ := Option.bind_eq_some_iff.mp eval
  obtain ⟨s₂, begun, rest⟩ := Option.bind_eq_some_iff.mp rest
  obtain ⟨s', second, eq⟩ := Option.map_eq_some_iff.mp rest
  simp only [Prod.mk.injEq] at eq
  obtain ⟨⟨reads, slot⟩, done⟩ := eq
  obtain ⟨terminate, reads⟩ := readsSlot_eq reads
  obtain ⟨outcome, done⟩ := returned_eq done
  have run := (run_of_exec second).weaken fun _ _ before => inTime_of_dead before
  exact ⟨s₁, s', outcome, reach_of_exec first, slot, done,
    disconnect_kills (reach_of_exec first) reads begun run done 0 (.inl slot) (.inl slot)⟩

/-- The child of a running session is alive when the disconnect returns that the adapter
never answered. -/
theorem disconnect_leaves_child : ¬ ∀ (s₁ s₂ s' : ToolServer lldb) (d : Nat) (terminate : Bool)
    (as : List (System.Action lldb)) (outcome : ToolOutcome),
    Reach ToolServer.step ToolServer.new s₁ →
    s₁.tasks d = some (.disconnect (.currentBackend terminate)) →
    s₁.step (.task d .go) = some s₂ → Run ToolServer.step anyStep s₂ as s' →
    s'.tasks d = some (.done outcome) → ∀ c, Held s₁ c → ∀ k, s'.conns c = some k → Dead k := by
  intro kills
  obtain ⟨s₁, s₂, s', terminate, outcome, k, reach, reads, slot, begun, run, done, here, alive⟩ :=
    unanswered
  exact alive (kills s₁ s₂ s' 1 terminate _ outcome reach reads begun run done 0 (.inl slot) k here)

end LldbDebugMcp.Server.Disconnect
