/- module: LldbDebugMcp/Server/Steps
   source: crates/mcp-tools/src/server.rs
   digest: What one step of the server can do, and what it leaves alone. -/

import LldbDebugMcp.Server.System

set_option autoImplicit false
set_option relaxedAutoImplicit false

namespace LldbDebugMcp.Server.Steps

open LldbDebugMcp.Core.Types
open LldbDebugMcp.Session.Manager
open LldbDebugMcp.Session.Operation
open LldbDebugMcp.Library.Transition
open LldbDebugMcp.Backend.Adapter (Pull)
open LldbDebugMcp.Server.Contract
open LldbDebugMcp.Server.Handler
open LldbDebugMcp.Server.Lifecycle
open LldbDebugMcp.Server.Execution
open LldbDebugMcp.Server.System

variable {S : Seam} {s s' : ToolServer S} {a : Action S}

/-- Every transition of a task, with the connection that it changes. -/
inductive TaskMoves (s : ToolServer S) (t : Nat) : Pc → Pc → Option (Nat × S.Conn) → Prop where
  | start {pc : StartPc} {goto : Goto StartPc} {conn : Option (Nat × S.Conn)}
      (move : pc.Moves s.toWorld t (s.tokens t) goto conn) :
      TaskMoves s t (.start pc) (.ofGoto .start goto) conn
  | disconnect {pc : DisconnectPc} {goto : Goto DisconnectPc} {conn : Option (Nat × S.Conn)}
      (move : pc.Moves s.toWorld t goto conn) :
      TaskMoves s t (.disconnect pc) (.ofGoto .disconnect goto) conn
  | resume {pc : ResumePc} {goto : Goto ResumePc} {conn : Option (Nat × S.Conn)}
      (move : pc.Moves s.toWorld t (s.tokens t) goto conn) :
      TaskMoves s t (.resume pc) (.ofGoto .resume goto) conn
  | pause {pc : PausePc} {goto : Goto PausePc} {conn : Option (Nat × S.Conn)}
      (move : pc.Moves s.toWorld t goto conn) :
      TaskMoves s t (.pause pc) (.ofGoto .pause goto) conn

theorem taskMoves_of_next {t : Nat} {choice : Choice S} {pc pc' : Pc}
    {conn : Option (Nat × S.Conn)}
    (h : pc.next s.toWorld t (s.tokens t) choice = some (pc', conn)) :
    TaskMoves s t pc pc' conn := by
  cases pc with
  | start pc =>
    obtain ⟨n, next, eq⟩ := Option.map_eq_some_iff.mp h
    cases eq
    exact .start (StartPc.moves_of_next next)
  | disconnect pc =>
    obtain ⟨n, next, eq⟩ := Option.map_eq_some_iff.mp h
    cases eq
    exact .disconnect (DisconnectPc.moves_of_next next)
  | resume pc =>
    obtain ⟨n, next, eq⟩ := Option.map_eq_some_iff.mp h
    cases eq
    exact .resume (ResumePc.moves_of_next next)
  | pause pc =>
    obtain ⟨n, next, eq⟩ := Option.map_eq_some_iff.mp h
    cases eq
    exact .pause (PausePc.moves_of_next next)
  | done outcome => cases h

theorem ofGoto_cases {π : Type} (inj : π → Pc) (goto : Goto π) :
    (∃ p, Pc.ofGoto inj goto = inj p) ∨ ∃ outcome, Pc.ofGoto inj goto = .done outcome := by
  cases goto with
  | «at» p => exact .inl ⟨p, rfl⟩
  | done outcome => exact .inr ⟨outcome, rfl⟩

theorem ofGoto_start {goto : Goto StartPc} {p : StartPc} (eq : Pc.ofGoto .start goto = .start p) :
    goto = .at p := by
  cases goto with
  | «at» q => cases eq; rfl
  | done outcome => cases eq

theorem ofGoto_resume {goto : Goto ResumePc} {p : ResumePc}
    (eq : Pc.ofGoto .resume goto = .resume p) : goto = .at p := by
  cases goto with
  | «at» q => cases eq; rfl
  | done outcome => cases eq

/-- What goes on as a resume was one. -/
theorem TaskMoves.of_resume {t : Nat} {pc : Pc} {p' : ResumePc} {conn : Option (Nat × S.Conn)}
    (move : TaskMoves s t pc (.resume p') conn) :
    ∃ p, pc = .resume p ∧ p.Moves s.toWorld t (s.tokens t) (.at p') conn := by
  generalize h : Pc.resume p' = pc' at move
  cases move with
  | @resume p goto _ move =>
    obtain rfl := ofGoto_resume h.symm
    exact ⟨p, rfl, move⟩
  | @start _ goto | @disconnect _ goto | @pause _ goto => cases goto <;> cases h

/-- Every way a step can go, with the state that it leads to. -/
inductive Moves (s : ToolServer S) : Action S → ToolServer S → Prop where
  | call {t : Nat} {tool : Tool} (fresh : s.tasks t = none) :
      Moves s (.call t tool) { s with tasks := Function.update s.tasks t (some tool.entry) }
  | cancelToken (t : Nat) :
      Moves s (.cancelToken t) { s with tokens := Function.update s.tokens t true }
  | task {t : Nat} {choice : Choice S} {pc pc' : Pc} {conn : Option (Nat × S.Conn)}
      (here : s.tasks t = some pc) (move : TaskMoves s t pc pc' conn) :
      Moves s (.task t choice) (s.goOn t pc pc' conn)
  | conn {c : Nat} {act : S.Act} {k k' : S.Conn} (here : s.conns c = some k)
      (acted : S.act k act = some k') :
      Moves s (.conn c act) { s with conns := Function.update s.conns c (some k') }
  | pump {c : Nat} {which : Pull} {g : UInt64} {k k' : S.Conn} {event : BackendEvent}
      (bound : s.pumps c = some g) (here : s.conns c = some k)
      (pulled : S.pull k which = some (event, k')) :
      Moves s (.pump c which)
        { s with
          session := (pumpOperation g event).apply s.session
          conns := Function.update s.conns c (some k') }
  | bookkeeping (op : Bookkeeping) :
      Moves s (.bookkeeping op) { s with session := op.apply s.session }

/-- The inversion of `step`. -/
theorem moves_of_step (taken : s.step a = some s') : Moves s a s' := by
  cases a with
  | call t tool =>
    simp only [ToolServer.step] at taken
    split at taken
    · rename_i fresh
      obtain rfl := Option.some.inj taken
      exact .call fresh
    · cases taken
  | cancelToken t =>
    obtain rfl := Option.some.inj taken
    exact .cancelToken t
  | task t choice =>
    obtain ⟨pc, here, rest⟩ := Option.bind_eq_some_iff.mp taken
    obtain ⟨⟨pc', conn⟩, next, rfl⟩ := Option.map_eq_some_iff.mp rest
    exact .task here (taskMoves_of_next next)
  | conn c act =>
    obtain ⟨k, here, rest⟩ := Option.bind_eq_some_iff.mp taken
    obtain ⟨k', acted, rfl⟩ := Option.map_eq_some_iff.mp rest
    exact .conn here acted
  | pump c which =>
    obtain ⟨g, bound, rest⟩ := Option.bind_eq_some_iff.mp taken
    obtain ⟨k, here, rest⟩ := Option.bind_eq_some_iff.mp rest
    obtain ⟨⟨event, k'⟩, pulled, rfl⟩ := Option.map_eq_some_iff.mp rest
    exact .pump bound here pulled
  | bookkeeping op =>
    obtain rfl := Option.some.inj taken
    exact .bookkeeping op

/-- The step of a task whose point is known, as the handler computes it. -/
theorem task_next {t : Nat} {choice : Choice S} {pc : Pc}
    (taken : s.step (.task t choice) = some s') (here : s.tasks t = some pc) :
    ∃ pc' conn, pc.next s.toWorld t (s.tokens t) choice = some (pc', conn) ∧
      s' = s.goOn t pc pc' conn := by
  obtain ⟨pc₀, here', rest⟩ := Option.bind_eq_some_iff.mp taken
  obtain rfl := Option.some.inj (here.symm.trans here')
  obtain ⟨⟨pc', conn⟩, next, rfl⟩ := Option.map_eq_some_iff.mp rest
  exact ⟨pc', conn, next, rfl⟩

theorem start_next {t : Nat} {choice : Choice S} {p : StartPc}
    (taken : s.step (.task t choice) = some s') (here : s.tasks t = some (.start p)) :
    ∃ n, p.next s.toWorld t (s.tokens t) choice = some n ∧
      s' = s.goOn t (.start p) (.ofGoto .start n.goto) n.conn := by
  obtain ⟨pc', conn, next, rfl⟩ := task_next taken here
  obtain ⟨n, went, eq⟩ := Option.map_eq_some_iff.mp next
  cases eq
  exact ⟨n, went, rfl⟩

theorem disconnect_next {t : Nat} {choice : Choice S} {p : DisconnectPc}
    (taken : s.step (.task t choice) = some s') (here : s.tasks t = some (.disconnect p)) :
    ∃ n, p.next s.toWorld t choice = some n ∧
      s' = s.goOn t (.disconnect p) (.ofGoto .disconnect n.goto) n.conn := by
  obtain ⟨pc', conn, next, rfl⟩ := task_next taken here
  obtain ⟨n, went, eq⟩ := Option.map_eq_some_iff.mp next
  cases eq
  exact ⟨n, went, rfl⟩

theorem resume_next {t : Nat} {choice : Choice S} {p : ResumePc}
    (taken : s.step (.task t choice) = some s') (here : s.tasks t = some (.resume p)) :
    ∃ n, p.next s.toWorld t (s.tokens t) choice = some n ∧
      s' = s.goOn t (.resume p) (.ofGoto .resume n.goto) n.conn := by
  obtain ⟨pc', conn, next, rfl⟩ := task_next taken here
  obtain ⟨n, went, eq⟩ := Option.map_eq_some_iff.mp next
  cases eq
  exact ⟨n, went, rfl⟩

/-- The step of a task whose point is known. -/
theorem task_step {t : Nat} {choice : Choice S} {pc : Pc}
    (taken : s.step (.task t choice) = some s') (here : s.tasks t = some pc) :
    ∃ pc' conn, TaskMoves s t pc pc' conn ∧ s' = s.goOn t pc pc' conn := by
  obtain ⟨pc', conn, next, after⟩ := task_next taken here
  exact ⟨pc', conn, taskMoves_of_next next, after⟩

section

variable {t : Nat} {pc pc' : Pc} {conn : Option (Nat × S.Conn)}

@[simp] theorem goOn_session :
    (s.goOn t pc pc' conn).session = applyOption s.session pc.operation := rfl

@[simp] theorem goOn_backend : (s.goOn t pc pc' conn).backend = pc.slot t s.backend := rfl

@[simp] theorem goOn_conns : (s.goOn t pc pc' conn).conns = s.setConn conn := rfl

@[simp] theorem goOn_tasks :
    (s.goOn t pc pc' conn).tasks = Function.update s.tasks t (some pc') := rfl

@[simp] theorem goOn_tokens : (s.goOn t pc pc' conn).tokens = s.tokens := rfl

/-- Where the tasks stand after the step of one of them. -/
theorem tasks_goOn {u : Nat} {q : Pc} (there : (s.goOn t pc pc' conn).tasks u = some q) :
    u ≠ t ∧ s.tasks u = some q ∨ u = t ∧ pc' = q := by
  rw [goOn_tasks] at there
  by_cases same : u = t
  · subst same
    rw [Function.update_self] at there
    exact .inr ⟨rfl, Option.some.inj there⟩
  · rw [Function.update_of_ne same] at there
    exact .inl ⟨same, there⟩

/-- Where the tasks stand after a call. -/
theorem tasks_called {tool : Tool} {u : Nat} {q : Pc}
    (there : Function.update s.tasks t (some tool.entry) u = some q) :
    s.tasks u = some q ∨ u = t ∧ tool.entry = q := by
  by_cases same : u = t
  · subst same
    rw [Function.update_self] at there
    exact .inr ⟨rfl, Option.some.inj there⟩
  · rw [Function.update_of_ne same] at there
    exact .inl there

/-- A task that was not called is not there. -/
theorem task_absent (taken : s.step a = some s') (absent : s.tasks t = none)
    (uncalled : ∀ tool, a ≠ .call t tool) : s'.tasks t = none := by
  cases moves_of_step taken with
  | @call t' tool fresh =>
    have hne : t ≠ t' := by
      rintro rfl
      exact uncalled tool rfl
    simp only [Function.update_of_ne hne, absent]
  | @task t' choice pc pc' conn here =>
    have hne : t ≠ t' := by
      rintro rfl
      cases absent.symm.trans here
    simp only [ToolServer.goOn, Function.update_of_ne hne, absent]
  | cancelToken | conn | pump | bookkeeping => exact absent

/-- A task stands where it is until it takes a step. -/
theorem task_stays (taken : s.step a = some s') (here : s.tasks t = some pc)
    (other : ∀ choice, a ≠ .task t choice) : s'.tasks t = some pc := by
  cases moves_of_step taken with
  | @call t' tool fresh =>
    have hne : t ≠ t' := by
      rintro rfl
      cases here.symm.trans fresh
    simp only [Function.update_of_ne hne, here]
  | @task t' choice =>
    have hne : t ≠ t' := by
      rintro rfl
      exact other choice rfl
    simp only [ToolServer.goOn, Function.update_of_ne hne, here]
  | cancelToken | conn | pump | bookkeeping => exact here

/-- Where a task stands after a step: where it stood, at its first point, or past a step of
its own. -/
theorem tasks_cases (taken : s.step a = some s') (there : s'.tasks t = some pc') :
    s.tasks t = some pc' ∨ (∃ tool, a = .call t tool ∧ pc' = tool.entry) ∨
    ∃ choice pc conn, a = .task t choice ∧ s.tasks t = some pc ∧ TaskMoves s t pc pc' conn ∧
      s' = s.goOn t pc pc' conn := by
  cases moves_of_step taken with
  | @call t' tool fresh =>
    rcases tasks_called there with old | ⟨rfl, eq⟩
    · exact .inl old
    · exact .inr (.inl ⟨tool, rfl, eq.symm⟩)
  | @task t' choice pc pc₁ conn here move =>
    rcases tasks_goOn there with ⟨-, old⟩ | ⟨rfl, rfl⟩
    · exact .inl old
    · exact .inr (.inr ⟨choice, pc, conn, rfl, here, move, rfl⟩)
  | cancelToken | conn | pump | bookkeeping => exact .inl there

end

/-- How a connection can change in one step of the server. -/
inductive ConnMoves (k k' : S.Conn) : Prop where
  | stay (same : k' = k)
  | start {t : Nat} {call : Backend.Operations.Call} (started : S.start k t call = some k')
  | cancel {t : Nat} (dropped : S.cancel k t = some k')
  | finish {t : Nat} {reply : Backend.Operations.Reply}
      (finished : S.finish k t = some (reply, k'))
  | act {act : S.Act} (acted : S.act k act = some k')
  | pull {which : Pull} {event : BackendEvent} (pulled : S.pull k which = some (event, k'))

/-- What the step of a task means for the connections: nothing, or the task opens its own, or
it begins its call on one, or it drops or finishes the call it awaits. -/
theorem TaskMoves.call_cases {t : Nat} {pc pc' : Pc} {conn : Option (Nat × S.Conn)}
    (move : TaskMoves s t pc pc' conn) :
    (conn = none ∧ pc.awaits t = none ∧ pc'.awaits t = none) ∨
    (∃ plan conf, pc = .start (.connecting plan) ∧ pc' = .start (.setBackend plan) ∧
      conn = some (t, S.connect conf)) ∨
    (∃ b k k' call, s.conns b = some k ∧ S.start k t call = some k' ∧ conn = some (b, k') ∧
      pc.awaits t = none ∧ pc'.awaits t = some b) ∨
    ∃ b k k', s.conns b = some k ∧ conn = some (b, k') ∧ pc.awaits t = some b ∧
      pc'.awaits t = none ∧
        (S.cancel k t = some k' ∨ ∃ reply, S.finish k t = some (reply, k')) := by
  cases move with
  | start move =>
    cases move with
    | connected conf => exact .inr (.inl ⟨_, conf, rfl, rfl, rfl⟩)
    | bindPump here started => exact .inr (.inr (.inl ⟨_, _, _, _, here, started, rfl, rfl, rfl⟩))
    | succeeded here finished | failed here finished =>
      exact .inr (.inr (.inr ⟨_, _, _, here, rfl, rfl, rfl, .inr ⟨_, finished⟩⟩))
    | cancelled _ here dropped =>
      exact .inr (.inr (.inr ⟨_, _, _, here, rfl, rfl, rfl, .inl dropped⟩))
    | _ => exact .inl ⟨rfl, rfl, rfl⟩
  | disconnect move =>
    cases move with
    | begun _ here started => exact .inr (.inr (.inl ⟨_, _, _, _, here, started, rfl, rfl, rfl⟩))
    | finished here finished =>
      exact .inr (.inr (.inr ⟨_, _, _, here, rfl, rfl, rfl, .inr ⟨_, finished⟩⟩))
    | timedOut here dropped =>
      exact .inr (.inr (.inr ⟨_, _, _, here, rfl, rfl, rfl, .inl dropped⟩))
    | _ => exact .inl ⟨rfl, rfl, rfl⟩
  | resume move =>
    cases move with
    | setRunning here started =>
      exact .inr (.inr (.inl ⟨_, _, _, _, here, started, rfl, rfl, rfl⟩))
    | @replied _ _ _ _ _ result here finished =>
      refine .inr (.inr (.inr ⟨_, _, _, here, rfl, rfl, ?_, .inr ⟨_, finished⟩⟩))
      rcases result with e | (info | code | _) <;> rfl
    | cancelled _ here dropped =>
      exact .inr (.inr (.inr ⟨_, _, _, here, rfl, rfl, rfl, .inl dropped⟩))
    | _ => exact .inl ⟨rfl, rfl, rfl⟩
  | pause move =>
    cases move with
    | begun _ here started => exact .inr (.inr (.inl ⟨_, _, _, _, here, started, rfl, rfl, rfl⟩))
    | replied here finished =>
      exact .inr (.inr (.inr ⟨_, _, _, here, rfl, rfl, rfl, .inr ⟨_, finished⟩⟩))
    | _ => exact .inl ⟨rfl, rfl, rfl⟩

/-- How a task changes a connection: it opens its own, or it begins, drops or finishes its
call on one. -/
theorem TaskMoves.conn_cases {t b : Nat} {pc pc' : Pc} {k' : S.Conn}
    (move : TaskMoves s t pc pc' (some (b, k'))) :
    (b = t ∧ (∃ plan, pc = .start (.connecting plan) ∧ pc' = .start (.setBackend plan)) ∧
      ∃ conf, k' = S.connect conf) ∨
    ∃ k, s.conns b = some k ∧ ConnMoves k k' := by
  rcases move.call_cases with ⟨none, -⟩ | ⟨plan, conf, at_, at_', eq⟩ |
    ⟨b, k, k', call, here, started, eq, -⟩ | ⟨b, k, k', here, eq, -, -, ended⟩
  · cases none
  · cases eq
    exact .inl ⟨rfl, ⟨plan, at_, at_'⟩, conf, rfl⟩
  · cases eq
    exact .inr ⟨k, here, .start started⟩
  · cases eq
    rcases ended with dropped | ⟨reply, finished⟩
    · exact .inr ⟨k, here, .cancel dropped⟩
    · exact .inr ⟨k, here, .finish finished⟩

/-- What a step does to the connections: one is opened, by the launch or attach that connects,
or the ones that there are change. -/
theorem conns_cases (taken : s.step a = some s') {c : Nat} {k' : S.Conn}
    (here : s'.conns c = some k') :
    (∃ choice plan conf, a = .task c choice ∧ s.tasks c = some (.start (.connecting plan)) ∧
      s'.tasks c = some (.start (.setBackend plan)) ∧ k' = S.connect conf) ∨
    ∃ k, s.conns c = some k ∧ ConnMoves k k' := by
  have stored : ∀ {b : Nat} {k₀ k₁ : S.Conn}, s.conns b = some k₀ → ConnMoves k₀ k₁ →
      Function.update s.conns b (some k₁) c = some k' →
      ∃ k, s.conns c = some k ∧ ConnMoves k k' := by
    intro b k₀ k₁ old moved eq
    by_cases same : c = b
    · subst same
      rw [Function.update_self] at eq
      exact ⟨k₀, old, Option.some.inj eq ▸ moved⟩
    · rw [Function.update_of_ne same] at eq
      exact ⟨k', eq, .stay rfl⟩
  cases moves_of_step taken with
  | call | cancelToken | bookkeeping => exact .inr ⟨k', here, .stay rfl⟩
  | @task t choice pc pc' conn at_ move =>
    rw [goOn_conns] at here
    cases conn with
    | none => exact .inr ⟨k', here, .stay rfl⟩
    | some conn =>
      obtain ⟨b, k₁⟩ := conn
      rcases move.conn_cases with ⟨rfl, ⟨plan, rfl, rfl⟩, conf, rfl⟩ | ⟨k₀, old, moved⟩
      · by_cases same : c = b
        · subst same
          change Function.update s.conns c _ c = _ at here
          rw [Function.update_self] at here
          exact .inl ⟨choice, plan, conf, rfl, at_, Function.update_self _ _ _,
            (Option.some.inj here).symm⟩
        · change Function.update s.conns b _ c = _ at here
          rw [Function.update_of_ne same] at here
          exact .inr ⟨k', here, .stay rfl⟩
      · exact .inr (stored old moved here)
  | conn old acted => exact .inr (stored old (.act acted) here)
  | pump _ old pulled => exact .inr (stored old (.pull pulled) here)

/-- What holds of a fresh connection, and is kept by all that can happen to one, holds of
every connection of the server in every state reached. -/
theorem conns_keep {J : S.Conn → Prop} (fresh : ∀ conf, J (S.connect conf))
    (keep : ∀ k k', J k → ConnMoves k k' → J k') (reach : Reach ToolServer.step ToolServer.new s)
    {c : Nat} {k : S.Conn} (here : s.conns c = some k) : J k := by
  have all : ∀ c k, s.conns c = some k → J k := by
    refine reach.keeps (I := fun s => ∀ c k, s.conns c = some k → J k) ?_ fun c k h => by cases h
    intro s a s' ih taken c k here
    rcases conns_cases taken here with ⟨-, -, conf, -, -, -, rfl⟩ | ⟨k₀, old, moved⟩
    · exact fresh conf
    · exact keep k₀ k (ih c k₀ old) moved
  exact all c k here

/-- The launch or attach is past its `connect()`, or has returned. -/
def opened : Pc → Bool
  | .start (.guardIdle _) | .start (.setConfiguring _) | .start (.flushPending _)
  | .start (.connecting _) | .start (.connectReset _) | .start (.connectResetOutput _)
  | .start (.connectClear _) => false
  | .start _ | .done _ => true
  | .disconnect _ | .resume _ | .pause _ => false

private theorem opened_moves {t : Nat} {pc pc' : Pc} {conn : Option (Nat × S.Conn)}
    (move : TaskMoves s t pc pc' conn) (past : opened pc = true) : opened pc' = true := by
  cases move with
  | start move => cases move <;> first | rfl | cases past
  | disconnect | resume | pause => cases past

/-- A connection belongs to the launch or attach that opened it. -/
theorem opened_of_conn (reach : Reach ToolServer.step ToolServer.new s) {t : Nat} {k : S.Conn}
    (here : s.conns t = some k) : ∃ pc, s.tasks t = some pc ∧ opened pc = true := by
  have all : ∀ t k, s.conns t = some k → ∃ pc, s.tasks t = some pc ∧ opened pc = true := by
    refine reach.keeps (I := fun s => ∀ t k, s.conns t = some k →
      ∃ pc, s.tasks t = some pc ∧ opened pc = true) ?_ fun t k h => by cases h
    intro s a s' ih taken t k here
    rcases conns_cases taken here with ⟨-, plan, -, -, -, at_, -⟩ | ⟨k₀, old, -⟩
    · exact ⟨_, at_, rfl⟩
    · obtain ⟨pc, at_, past⟩ := ih t k₀ old
      by_cases self : ∃ choice, a = .task t choice
      · obtain ⟨choice, rfl⟩ := self
        obtain ⟨pc', conn, move, rfl⟩ := task_step taken at_
        exact ⟨pc', Function.update_self _ _ _, opened_moves move past⟩
      · exact ⟨pc, task_stays taken at_ fun choice h => self ⟨choice, h⟩, past⟩
  exact all t k here

/-- A connection stays, and changes as connections do. -/
theorem conn_step (reach : Reach ToolServer.step ToolServer.new s) (taken : s.step a = some s')
    {c : Nat}
    {k : S.Conn} (here : s.conns c = some k) : ∃ k', s'.conns c = some k' ∧ ConnMoves k k' := by
  have kept : ∃ k', s'.conns c = some k' := by
    cases moves_of_step taken with
    | call | cancelToken | bookkeeping => exact ⟨k, here⟩
    | @task t choice pc pc' conn =>
      cases conn with
      | none => exact ⟨k, here⟩
      | some conn =>
        by_cases same : c = conn.1
        · exact ⟨conn.2, by subst same; exact Function.update_self _ _ _⟩
        · exact ⟨k, (Function.update_of_ne same _ _).trans here⟩
    | @conn b | @pump b =>
      by_cases same : c = b
      · subst same
        exact ⟨_, Function.update_self _ _ _⟩
      · exact ⟨k, (Function.update_of_ne same _ _).trans here⟩
  obtain ⟨k', there⟩ := kept
  rcases conns_cases taken there with ⟨-, plan, -, -, at_, -⟩ | ⟨k₀, old, moved⟩
  · obtain ⟨pc, at_', past⟩ := opened_of_conn reach here
    obtain rfl := Option.some.inj (at_.symm.trans at_')
    cases past
  · obtain rfl := Option.some.inj (here.symm.trans old)
    exact ⟨k', there, moved⟩

/-- No handler is in flight. -/
def Quiet (s : ToolServer S) : Prop := ∀ t pc, s.tasks t = some pc → ∃ outcome, pc = .done outcome

/-- The session write that the next step of a task makes. -/
def taskOperation (s : ToolServer S) (t : Nat) : Option SessionOp :=
  (s.tasks t).bind Pc.operation

/-- The session write that a step makes. -/
def stepOperation (s : ToolServer S) : Action S → Option SessionOp
  | .task t _ => taskOperation s t
  | .pump c which => (s.pumps c).bind fun generation => (s.conns c).bind fun k =>
    (S.pull k which).map fun p => pumpOperation generation p.1
  | .bookkeeping op => some (.bookkeeping op)
  | .call .. | .cancelToken _ | .conn .. => none

/-- The step is a `reset()` of the session. -/
def Resets (s : ToolServer S) : Action S → Prop
  | .task t _ => (taskOperation s t).any SessionOp.isReset = true
  | _ => False

instance : (a : Action S) → Decidable (Resets s a)
  | .task _ _ => inferInstanceAs (Decidable (_ = true))
  | .call .. | .cancelToken _ | .conn .. | .pump .. | .bookkeeping _ => .isFalse id

theorem resets_task {t : Nat} {choice : Choice S} :
    Resets s (.task t choice) ↔ taskOperation s t = some .resetInner := by
  simp [Resets, Option.any_eq_true, SessionOp.isReset_iff]

theorem taskOperation_of {t : Nat} {pc : Pc} (here : s.tasks t = some pc) :
    taskOperation s t = pc.operation := by
  simp only [taskOperation, here, Option.bind_some]

/-- The handlers of the lifecycle and of execution leave the bookkeeping of the other tools
alone. -/
theorem operation_ne_bookkeeping {pc : Pc} {op : Bookkeeping} :
    pc.operation ≠ some (.bookkeeping op) := by
  cases pc with
  | start pc =>
    cases pc with
    | setPid plan outcome target => cases target <;> exact fun h => by cases h
    | _ => exact fun h => by cases h
  | disconnect pc | resume pc => cases pc <;> exact fun h => by cases h
  | pause | done => exact fun h => by cases h

/-- Only a continue or a step drains the output buffer, on its way back. -/
theorem drain_cases {t : Nat} (drains : taskOperation s t = some .drainOutput) :
    (∃ g info, s.tasks t = some (.resume (.drainStopped g info))) ∨
      ∃ g code, s.tasks t = some (.resume (.drainExited g code)) := by
  obtain ⟨pc, here, operation⟩ := Option.bind_eq_some_iff.mp drains
  cases pc with
  | start pc =>
    cases pc with
    | setPid plan outcome target => cases target <;> cases operation
    | _ => cases operation
  | disconnect pc => cases pc <;> cases operation
  | resume pc =>
    cases pc with
    | drainStopped g info => exact .inl ⟨g, info, here⟩
    | drainExited g code => exact .inr ⟨g, code, here⟩
    | _ => cases operation
  | pause | done => cases operation

/-- The task is a disconnect about to reset the session. -/
def resetting (s : ToolServer S) (t : Nat) : Bool :=
  (s.tasks t).any fun
    | .disconnect .reset => true
    | _ => false

theorem resetting_eq {t : Nat} (h : resetting s t = true) :
    s.tasks t = some (.disconnect .reset) := by
  obtain ⟨pc, here, h⟩ := (Option.any_eq_true _ _).mp h
  cases pc with
  | disconnect pc => cases pc <;> first | exact here | cases h
  | _ => cases h

/-- The call of the task has returned. -/
def returned (s : ToolServer S) (t : Nat) : Bool :=
  (s.tasks t).any fun
    | .done _ => true
    | _ => false

theorem returned_eq {t : Nat} (h : returned s t = true) :
    ∃ outcome, s.tasks t = some (.done outcome) := by
  obtain ⟨pc, here, h⟩ := (Option.any_eq_true _ _).mp h
  cases pc with
  | done outcome => exact ⟨outcome, here⟩
  | _ => cases h

/-- The call of the task has returned an error. -/
def failedTask (s : ToolServer S) (t : Nat) : Bool :=
  (s.tasks t).any fun
    | .done (.error _) => true
    | _ => false

theorem failedTask_eq {t : Nat} (h : failedTask s t = true) :
    ∃ e, s.tasks t = some (.done (.error e)) := by
  obtain ⟨pc, here, h⟩ := (Option.any_eq_true _ _).mp h
  split at h
  · exact ⟨_, here⟩
  · cases h

/-- The event pump writes the session only with the generation that it captured. -/
theorem pumpOperation_core {m : SessionManager} {g : UInt64} {event : BackendEvent}
    (stale : m.generation ≠ g) : core ((pumpOperation g event).apply m) = core m := by
  cases event with
  | output category text => rfl
  | terminated code => exact congrArg core (terminateIfGeneration_stale code stale)

/-- What each kind of step does to the session, as far as its state machine goes: a task
makes the write of its point, a pump its guarded write, and other steps none. -/
theorem step_core (taken : s.step a = some s') :
    (∃ t choice, a = .task t choice ∧
      s'.session = applyOption s.session (taskOperation s t)) ∨
    (∃ c which g event, a = .pump c which ∧ s.pumps c = some g ∧
      s'.session = (pumpOperation g event).apply s.session) ∨
    core s'.session = core s.session := by
  cases moves_of_step taken with
  | call | cancelToken | conn => exact .inr (.inr rfl)
  | @task t choice pc pc' conn here move =>
    refine .inl ⟨t, choice, rfl, ?_⟩
    rw [goOn_session, taskOperation_of here]
  | pump bound here pulled => exact .inr (.inl ⟨_, _, _, _, rfl, bound, rfl⟩)
  | bookkeeping op => exact .inr (.inr (bookkeeping_core s.session op))

/-- A step changes the session by its write alone. -/
theorem step_session (taken : s.step a = some s') :
    s'.session = applyOption s.session (stepOperation s a) := by
  cases moves_of_step taken with
  | call | cancelToken | conn => rfl
  | @task t choice pc pc' conn here move => rw [goOn_session, stepOperation, taskOperation_of here]
  | @pump c which g k k' event bound here pulled =>
    simp only [stepOperation, bound, here, pulled, Option.bind_some, Option.map_some, applyOption]
  | bookkeeping op => rfl

theorem pumpOperation_ne_reset {g : UInt64} {event : BackendEvent} :
    pumpOperation g event ≠ .resetInner := by
  cases event <;> simp [pumpOperation]

/-- Where the session write of a step comes from. -/
theorem stepOperation_cases {op : SessionOp} (writes : stepOperation s a = some op) :
    (∃ t choice, a = .task t choice ∧ taskOperation s t = some op) ∨
    (∃ c which g event, a = .pump c which ∧ op = pumpOperation g event) ∨
    ∃ b, a = .bookkeeping b ∧ op = .bookkeeping b := by
  cases a with
  | task t choice => exact .inl ⟨t, choice, rfl, writes⟩
  | pump c which =>
    obtain ⟨g, -, rest⟩ := Option.bind_eq_some_iff.mp writes
    obtain ⟨k, -, rest⟩ := Option.bind_eq_some_iff.mp rest
    obtain ⟨p, -, rfl⟩ := Option.map_eq_some_iff.mp rest
    exact .inr (.inl ⟨c, which, g, p.1, rfl, rfl⟩)
  | bookkeeping b =>
    obtain rfl := Option.some.inj writes
    exact .inr (.inr ⟨b, rfl, rfl⟩)
  | call | cancelToken | conn => cases writes

theorem resets_iff : Resets s a ↔ stepOperation s a = some .resetInner := by
  constructor
  · intro reset
    cases a with
    | task t choice => exact resets_task.mp reset
    | _ => exact reset.elim
  · intro writes
    rcases stepOperation_cases writes with
      ⟨t, choice, rfl, eq⟩ | ⟨c, which, g, event, -, eq⟩ | ⟨b, -, eq⟩
    · exact resets_task.mpr eq
    · exact absurd eq.symm pumpOperation_ne_reset
    · cases eq

/-- Only a reset moves the epoch. -/
theorem step_generation (taken : s.step a = some s') (still : ¬ Resets s a) :
    s'.session.generation = s.session.generation := by
  rcases step_core taken with ⟨t, choice, rfl, eq⟩ | ⟨c, which, g, event, rfl, -, eq⟩ | eq
  · rw [eq]
    cases h : taskOperation s t with
    | none => rfl
    | some op =>
      refine apply_generation s.session op ?_
      rintro rfl
      exact still (resets_task.mpr h)
  · rw [eq]
    exact apply_generation s.session _ pumpOperation_ne_reset
  · exact congrArg Core.generation eq

/-- A write other than a reset does not make the session idle. -/
theorem operation_not_idle {m : SessionManager} {pc : Pc} (active : m.state ≠ .idle)
    (still : pc.operation ≠ some .resetInner) : (applyOption m pc.operation).state ≠ .idle := by
  cases pc with
  | start pc =>
    cases pc with
    | setOutcome plan outcome pid => cases outcome <;> exact fun h => by cases h
    | setPid plan outcome target => cases target <;> exact active
    | setConfiguring => exact fun h => by cases h
    | connectReset | cleanupReset => exact absurd rfl still
    | _ => exact active
  | disconnect pc =>
    cases pc with
    | reset => exact absurd rfl still
    | _ => exact active
  | resume pc =>
    cases pc with
    | setRunning | revert => exact fun h => by cases h
    | applyStopped | applyTerminated | applyExited =>
      simp only [Pc.operation, ResumePc.operation, applyOption]
      rw [apply_state]
      simp only [SessionOp.target]
      split <;> simp [active]
    | _ => exact active
  | pause | done => exact active

theorem pump_not_idle {m : SessionManager} {g : UInt64} {event : BackendEvent}
    (active : m.state ≠ .idle) : ((pumpOperation g event).apply m).state ≠ .idle := by
  cases event with
  | output category text => exact active
  | terminated code =>
    simp only [pumpOperation, apply_state, SessionOp.target]
    split <;> simp [active]

/-- Only a reset makes the session idle. -/
theorem step_not_idle (taken : s.step a = some s') (still : ¬ Resets s a)
    (active : s.session.state ≠ .idle) : s'.session.state ≠ .idle := by
  cases moves_of_step taken with
  | @task t choice pc pc' conn here move =>
    rw [goOn_session]
    refine operation_not_idle active ?_
    rw [← taskOperation_of here]
    exact fun h => still (resets_task.mpr h)
  | call | cancelToken | conn => exact active
  | pump => exact pump_not_idle active
  | bookkeeping op =>
    rw [show (op.apply s.session).state = s.session.state from
      congrArg Core.state (bookkeeping_core s.session op)]
    exact active

/-- A reset bumps the epoch and leaves the session idle. -/
theorem step_of_resets (taken : s.step a = some s') (reset : Resets s a) :
    s'.session = s.session.resetInner := by
  cases moves_of_step taken with
  | task here move =>
    rw [goOn_session, ← taskOperation_of here, resets_task.mp reset]
    rfl
  | call | cancelToken | conn | pump | bookkeeping => exact absurd reset id

end LldbDebugMcp.Server.Steps
