/- module: LldbDebugMcp/Server/Interrupt
   source: crates/mcp-tools/src/handlers/execution.rs, crates/mcp-tools/src/server.rs
   digest: When a pause gets a running debuggee back, and when nothing but a disconnect does. -/

import LldbDebugMcp.Backend.StopWaiter
import LldbDebugMcp.Server.Progress

set_option autoImplicit false
set_option relaxedAutoImplicit false

namespace LldbDebugMcp.Server.Interrupt

open LldbDebugMcp.Core.Types
open LldbDebugMcp.Session.Manager
open LldbDebugMcp.Session.Operation
open LldbDebugMcp.Client.Message
open LldbDebugMcp.Client.ReadLoop
open LldbDebugMcp.Client.State
open LldbDebugMcp.Library.Channel
open LldbDebugMcp.Library.Transition
open LldbDebugMcp.Library.Effect
open LldbDebugMcp.Backend.Operations (Call Reply Op Dap)
open LldbDebugMcp.Backend.Adapter (Connection Fut)
open LldbDebugMcp.Backend.ResumeCall (awaitStop resumed)
open LldbDebugMcp.Server.Contract
open LldbDebugMcp.Server.Response
open LldbDebugMcp.Server.Handler
open LldbDebugMcp.Server.Lifecycle
open LldbDebugMcp.Server.Execution
open LldbDebugMcp.Server.System
open LldbDebugMcp.Server.Steps
open LldbDebugMcp.Server.Lldb
open LldbDebugMcp.Server.Calls (call_awaited)

/-! A running debuggee that no call waits for. -/

section

variable {S : Seam} {s s' : ToolServer S} {a : Action S} {t : Nat}

/-- Where a call stands while the session is neither idle nor stopped: a launch, an attach or a
resume is at its guard or was turned away by it, and a pause may be anywhere. -/
inductive Stands : Tool → Pc → Prop where
  | guardIdle (args : Except String StartArgs) : Stands (.start args) (.start (.guardIdle args))
  | guardStopped (args : ResumeArgs) : Stands (.resume args) (.resume (.guardStopped args))
  | turnedAway (tool : Tool) (e : String) : Stands tool (.done (.error e))
  | pausing (pc : PausePc) : Stands .pause (.pause pc)
  | paused (outcome : ToolOutcome) : Stands .pause (.done outcome)

/-- The debuggee runs or has ended, and no call is under way that would record a stop. -/
structure Unattended (s : ToolServer S) : Prop where
  running : s.session.state = .running ∨ s.session.state = .terminated
  idles : ∀ t pc, s.tasks t = some pc → (∃ outcome, pc = .done outcome) ∨ ∃ tool, Stands tool pc

theorem Unattended.not_idle (unattended : Unattended s) : s.session.state ≠ .idle := by
  rcases unattended.running with eq | eq <;> simp [eq]

theorem Unattended.not_stopped (unattended : Unattended s) : s.session.state ≠ .stopped := by
  rcases unattended.running with eq | eq <;> simp [eq]

/-- A call that stands so writes nothing, and goes on so. -/
theorem Stands.moves {tool : Tool} {pc pc' : Pc} {conn : Option (Nat × S.Conn)}
    (unattended : Unattended s) (stands : Stands tool pc) (move : TaskMoves s t pc pc' conn) :
    pc.operation = none ∧ pc.slot t s.backend = s.backend ∧ Stands tool pc' := by
  cases stands with
  | guardIdle args =>
    refine ⟨rfl, rfl, ?_⟩
    cases move with
    | start move =>
      cases move with
      | turnedAway | badArgs => exact .turnedAway _ _
      | admitted idle => exact absurd idle unattended.not_idle
  | guardStopped args =>
    refine ⟨rfl, rfl, ?_⟩
    cases move with
    | resume move =>
      cases move with
      | turnedAway => exact .turnedAway _ _
      | admitted stopped => exact absurd stopped unattended.not_stopped
  | pausing pc =>
    refine ⟨rfl, rfl, ?_⟩
    cases move with
    | pause move =>
      cases move with
      | turnedAway | noBackend | replied => exact .paused _
      | admitted | begun => exact .pausing _
  | turnedAway | paused => cases move

/-- A disconnect is called. -/
def Disconnects : Action S → Prop
  | .call _ (.disconnect _) => True
  | _ => False

instance : (a : Action S) → Decidable (Disconnects a)
  | .call _ (.disconnect _) => .isTrue trivial
  | .call _ (.start _) | .call _ (.resume _) | .call _ .pause | .cancelToken _ | .task .. |
    .conn .. | .pump .. | .bookkeeping _ => .isFalse id

/-- What stays as it is: the slot, the epoch, and the stop that was recorded last. -/
structure Same (s s' : ToolServer S) : Prop where
  backend : s'.backend = s.backend
  generation : s'.session.generation = s.session.generation
  lastStopped : s'.session.lastStopped = s.session.lastStopped

theorem Same.trans {s₁ s₂ s₃ : ToolServer S} (first : Same s₁ s₂) (second : Same s₂ s₃) :
    Same s₁ s₃ where
  backend := second.backend.trans first.backend
  generation := second.generation.trans first.generation
  lastStopped := second.lastStopped.trans first.lastStopped

/-- What the event pump makes of a session that runs or has ended. -/
theorem pump_running {m : SessionManager} {g : UInt64} {event : BackendEvent}
    (running : m.state = .running ∨ m.state = .terminated) :
    (((pumpOperation g event).apply m).state = .running ∨
      ((pumpOperation g event).apply m).state = .terminated) ∧
    ((pumpOperation g event).apply m).generation = m.generation ∧
    ((pumpOperation g event).apply m).lastStopped = m.lastStopped := by
  cases event with
  | output category text => exact ⟨running, rfl, rfl⟩
  | terminated code =>
    by_cases current : m.generation = g
    · simp [pumpOperation, SessionOp.apply, SessionManager.terminateIfGeneration, current]
    · have stale : (pumpOperation g (.terminated code)).apply m = m :=
        terminateIfGeneration_stale code current
      rw [stale]
      exact ⟨running, rfl, rfl⟩

theorem stands_entry {tool : Tool} (calm : ∀ terminate, tool ≠ .disconnect terminate) :
    Stands tool tool.entry := by
  cases tool with
  | start args => exact .guardIdle args
  | disconnect terminate => exact absurd rfl (calm terminate)
  | resume args => exact .guardStopped args
  | pause => exact .pausing _

theorem unattended_step (unattended : Unattended s) (calm : ¬ Disconnects a)
    (taken : s.step a = some s') : Unattended s' ∧ Same s s' := by
  cases moves_of_step taken with
  | @call t tool fresh =>
    refine ⟨⟨unattended.running, fun u pc there => ?_⟩, ⟨rfl, rfl, rfl⟩⟩
    rcases tasks_called there with old | ⟨rfl, rfl⟩
    · exact unattended.idles u pc old
    · exact .inr ⟨tool, stands_entry fun terminate eq => calm (by rw [eq]; trivial)⟩
  | cancelToken | conn => exact ⟨⟨unattended.running, unattended.idles⟩, ⟨rfl, rfl, rfl⟩⟩
  | @task t choice pc pc' conn here move =>
    rcases unattended.idles t pc here with ⟨outcome, rfl⟩ | ⟨tool, stands⟩
    · cases move
    obtain ⟨writes, slot, goes⟩ := stands.moves unattended move
    have session : (s.goOn t pc pc' conn).session = s.session := by
      rw [goOn_session, writes]
      rfl
    have backend : (s.goOn t pc pc' conn).backend = s.backend := by rw [goOn_backend, slot]
    refine ⟨⟨by rw [session]; exact unattended.running, fun u q there => ?_⟩,
      ⟨backend, by rw [session], by rw [session]⟩⟩
    rcases tasks_goOn there with ⟨-, old⟩ | ⟨rfl, rfl⟩
    · exact unattended.idles u q old
    · exact .inr ⟨tool, goes⟩
  | @pump c which g k k' event bound here pulled =>
    obtain ⟨state, generation, lastStopped⟩ := @pump_running s.session g event unattended.running
    exact ⟨⟨state, unattended.idles⟩, ⟨rfl, generation, lastStopped⟩⟩
  | bookkeeping op =>
    have core_eq := bookkeeping_core s.session op
    refine ⟨⟨?_, unattended.idles⟩, ⟨rfl, congrArg Core.generation core_eq,
      congrArg Core.lastStopped core_eq⟩⟩
    rw [show (op.apply s.session).state = s.session.state from congrArg Core.state core_eq]
    exact unattended.running

/-- A call that stands so stays so over any step. -/
theorem stands_step {tool : Tool} {pc : Pc} (unattended : Unattended s)
    (taken : s.step a = some s') (here : s.tasks t = some pc) (stands : Stands tool pc) :
    ∃ pc', s'.tasks t = some pc' ∧ Stands tool pc' := by
  by_cases own : ∃ choice, a = .task t choice
  · obtain ⟨choice, rfl⟩ := own
    obtain ⟨pc', conn, move, rfl⟩ := task_step taken here
    exact ⟨pc', by rw [goOn_tasks, Function.update_self], (stands.moves unattended move).2.2⟩
  · exact ⟨pc, task_stays taken here fun choice eq => own ⟨choice, eq⟩, stands⟩

/-- While the session runs or has ended with no launch, attach, continue or step under way, the
slot, the epoch and the recorded stop stay as they are and no state but terminated is recorded,
whatever the adapter does: every such call is turned away, and a pause that succeeds is in vain.
Only a disconnect gets the session out of it. -/
theorem unattended_stays {P : ToolServer S → Action S → Prop} {as : List (Action S)}
    (unattended : Unattended s) (run : Run ToolServer.step P s as s')
    (calm : ∀ a ∈ as, ¬ Disconnects a) : Unattended s' ∧ Same s s' ∧
      ∀ t tool, Action.call t tool ∈ as → ∃ pc, s'.tasks t = some pc ∧ Stands tool pc := by
  have restricted : Run ToolServer.step (fun _ a => ¬ Disconnects a) s as s' :=
    run.restrict fun a mem _ => calm a mem
  refine restricted.keeps_history (I := fun as s' => Unattended s' ∧ Same s s' ∧
    ∀ t tool, Action.call t tool ∈ as → ∃ pc, s'.tasks t = some pc ∧ Stands tool pc) ?_
    ⟨unattended, ⟨rfl, rfl, rfl⟩, nofun⟩
  rintro as s₁ a s₂ - ⟨here, same, stands⟩ calm taken
  obtain ⟨there, goes⟩ := unattended_step here calm taken
  refine ⟨there, same.trans goes, fun t tool called => ?_⟩
  rcases List.mem_append.mp called with before | now
  · obtain ⟨pc, at_, stand⟩ := stands t tool before
    exact stands_step here taken at_ stand
  · obtain rfl := List.mem_singleton.mp now
    cases moves_of_step taken with
    | call fresh =>
      exact ⟨tool.entry, Function.update_self .., stands_entry fun terminate eq => calm (by
        rw [eq]
        trivial)⟩

end

/-- A launch that does not stop at the entry. -/
def launched : List (System.Action lldb) :=
  launchCall 0 false ++ handshake 0 false ++ launchRunning 0

/-- A pause that the adapter grants, and the stop that it brings about. -/
def pauseGranted : List (System.Action lldb) :=
  [.call 1 .pause] ++ proceed 1 2 ++ write 0 1 ++
    [receive 0 (answer 5), poll 0 1, .task 1 .reply, receive 0 (stoppedEvent "pause")]

/-- The pause succeeds and the debuggee stops, but the session goes on running. -/
theorem unattended_stays_paused : ∃ s s' : ToolServer lldb,
    Run ToolServer.step anyStep ToolServer.new launched s ∧
      Run ToolServer.step anyStep s pauseGranted s' ∧
    (∃ k, s'.conns 0 = some k ∧
      k.link.lastExecution = some (.stopped ⟨"pause", 1, "", []⟩)) ∧
    returned s' 1 = true ∧ failedTask s' 1 = false ∧ Unattended s' ∧ Same s s' := by
  have eval : (exec ToolServer.step anyStep (ToolServer.new : ToolServer lldb) launched).bind
      (fun s =>
      (exec ToolServer.step anyStep s pauseGranted).map fun s' =>
        ((s.session.state, returned s 0),
          ((s'.conns 0).map (·.link.lastExecution), returned s' 1, failedTask s' 1))) =
      some ((.running, true),
        (some (some (.stopped ⟨"pause", 1, "", []⟩)), true, false)) := by
    decide +kernel
  obtain ⟨s, first, rest⟩ := Option.bind_eq_some_iff.mp eval
  obtain ⟨s', second, seen⟩ := Option.map_eq_some_iff.mp rest
  obtain ⟨before, after⟩ := Prod.mk.inj seen
  obtain ⟨running, done⟩ := Prod.mk.inj before
  obtain ⟨stopped, outcome_eq⟩ := Prod.mk.inj after
  obtain ⟨done', succeeded⟩ := Prod.mk.inj outcome_eq
  obtain ⟨k, there, last⟩ := Option.map_eq_some_iff.mp stopped
  obtain ⟨outcome, returned⟩ := returned_eq done
  have quiet := quiet_of_onlyFirst (run_of_exec first) (by decide) returned
  have calm : ∀ a ∈ pauseGranted, ¬ Disconnects a := by decide
  have stays := unattended_stays ⟨.inl running, fun t pc at_ => .inl (quiet t pc at_)⟩
    (run_of_exec second) calm
  exact ⟨s, s', run_of_exec first, run_of_exec second, ⟨k, there, last⟩, done', succeeded,
    stays.1, stays.2.1⟩

/-! A running debuggee that a continue or step waits for. -/

section

variable {s s' : ToolServer lldb} {b r t : Nat} {k k' : Connection}

/-- A point of a handler is left as it says. -/
theorem task_goes {choice : Choice lldb} {pc pc' : Pc} {conn : Option (Nat × Connection)}
    (at_ : s.tasks t = some pc)
    (next : pc.next s.toWorld t (s.tokens t) choice = some (pc', conn)) :
    s.step (.task t choice) = some (s.goOn t pc pc' conn) := by
  simp only [ToolServer.step, ToolServer.taskStep, at_, Option.bind_some, next, Option.map_some]

def onConn (b : Nat) (act : Backend.Adapter.Act) : System.Action lldb := .conn b act

/-- What happens on a connection is a run of the server that changes nothing else. -/
theorem conn_run {acts : List Backend.Adapter.Act} (here : s.conns b = some k)
    (run : Run Connection.act anyStep k acts k') :
    Run ToolServer.step anyStep s (acts.map (onConn b))
      { s with conns := Function.update s.conns b (some k') } := by
  induction run generalizing s with
  | nil k =>
    have same : { s with conns := Function.update s.conns b (some k) } = s := by
      rw [← here, Function.update_eq_self]
    rw [same]
    exact .nil s
  | @cons k k₁ k' act acts _ acted _ ih =>
    have taken : s.step (.conn b act) =
        some { s with conns := Function.update s.conns b (some k₁) } := by
      simp only [ToolServer.step, here, Option.bind_some]
      rw [acted]
      rfl
    have rest := @ih { s with conns := Function.update s.conns b (some k₁) }
      (Function.update_self ..)
    simp only [Function.update_idem] at rest
    exact .cons trivial taken rest

/-- A continue or step is blocked on the connection: its stop waiter is in the slot, and the read
loop awaits the next message. -/
structure Blocked (k : Connection) (r : Nat) : Prop where
  reading : k.link.loop = .reading
  parked : ∃ rx w, k.calls r = some ⟨awaitStop, .running, rx, some w⟩ ∧
    k.link.shared.stopWaiter.slot = some w

/-- A request that the adapter grants. -/
def granted (seq : Int) : DapMessage := .response ⟨0, "response", seq, true, "pause", "", none⟩

/-- The exchange of a pause, from the first poll of its future to the last. -/
def pauseExchange (t : Nat) (seq : Int) : List Backend.Adapter.Act :=
  [.poll t .go, .poll t .accept, .receive (granted seq), .poll t .go]

theorem act_poll {f f' : Fut} {choice : Backend.Adapter.Choice} (call : k.calls t = some f)
    (advance : k.advance f choice = some (k', f')) :
    k.act (.poll t choice) = some (k'.setCall t (some f')) := by
  simp only [Connection.act, Connection.poll, call, Option.bind_some, advance, Option.map_some]

theorem act_receive (reading : k.link.loop = .reading) (message : DapMessage) :
    k.act (.receive message) = some (k.setLink (k.link.dispatch message)) := by
  simp only [Connection.act, Link.receive, reading, if_true, Option.map_some]

/-- A pause goes through while a continue or step is blocked, which stays so. -/
theorem pause_exchanged (blocked : Blocked k r) (apart : t ≠ r)
    (begun : k.calls t = some (Fut.new Call.pause.program)) :
    ∃ k', Run Connection.act anyStep k (pauseExchange t (k.link.shared.seq + 1)) k' ∧
      Blocked k' r ∧
      ∃ rx waiter, k'.calls t = some ⟨.done (.pause (.ok ())), .running, rx, waiter⟩ := by
  obtain ⟨rx, w, parked, slot⟩ := blocked.parked
  let q := k.link.shared.seq + 1
  let request := Backend.Requests.pause.setSeq q
  -- the request is registered, and written
  let f₁ : Fut := { Fut.new Call.pause.program with await := .writing q }
  let k₁ := (k.setShared k.link.shared.registerPending.2).setCall t (some f₁)
  have registers : k.act (.poll t .go) = some k₁ := act_poll begun rfl
  let f₂ : Fut := { f₁ with await := .awaiting q }
  let k₂ := ({ k₁ with link := k₁.link.accept request } : Connection).setCall t (some f₂)
  have writes : k₁.act (.poll t .accept) = some k₂ := act_poll (Function.update_self ..) rfl
  -- the response is read, and the reply taken
  let k₃ := k₂.setLink (k₂.link.dispatch (granted q))
  have reads : k₂.act (.receive (granted q)) = some k₃ :=
    act_receive (k := k₂) blocked.reading _
  have pending : q ∈ k₂.link.shared.pending := Finset.mem_insert_self ..
  have dispatched : k₃.link.shared = (k₂.link.shared.dispatchResponse q (granted q)).1 := rfl
  have answered : k₃.link.shared.replies q = .sent (.ok (granted q)) := by
    rw [dispatched, Shared.dispatchResponse, if_pos pending]
    exact Function.update_self ..
  have call₃ : k₃.calls t = some f₂ := Function.update_self ..
  have takes : k₃.act (.poll t .go) =
      some (k₃.setCall t (some ⟨.done (.pause (.ok ())), .running, none, none⟩)) := by
    refine act_poll call₃ ?_
    change (((k₃.link.shared.replies q).poll).map _ : Option (Connection × Fut)) = _
    rw [answered]
    rfl
  refine ⟨_, .cons trivial registers (.cons trivial writes (.cons trivial reads
    (.single trivial takes))), ⟨blocked.reading, rx, w, ?_, ?_⟩, none, none,
    Function.update_self ..⟩
  · have other : r ≠ t := apart.symm
    change Function.update (Function.update (Function.update k.calls t _) t _) t _ r = _
    rw [Function.update_of_ne other, Function.update_of_ne other, Function.update_of_ne other,
      parked]
  · change k₃.link.shared.stopWaiter.slot = some w
    rw [dispatched, Shared.dispatchResponse, if_pos pending]
    exact slot

/-- A stop that is read while a continue or step is blocked ends its call. -/
theorem stop_exchanged (blocked : Blocked k r) (body : StoppedBody) :
    ∃ k', Run Connection.act anyStep k [.receive (.event (.stopped body)), .poll r .go] k' ∧
      ∃ rx waiter, k'.calls r =
        some ⟨.done (.resume (.ok (.stopped (stopInfoFromEvent body)))), .running, rx, waiter⟩ := by
  obtain ⟨rx, w, parked, slot⟩ := blocked.parked
  let k₁ := k.setLink (k.link.dispatch (.event (.stopped body)))
  have reads : k.act (.receive (.event (.stopped body))) = some k₁ :=
    act_receive blocked.reading _
  have sent : (k₁.link.shared.stopWaiter.chan w).poll =
      some (some (.stopped (stopInfoFromEvent body))) := by
    change ((k.link.shared.stopWaiter.send _).chan w).poll = _
    rw [Slot.send_chan_self _ slot]
    rfl
  have takes : k₁.act (.poll r .go) = some (k₁.setCall r
      (some ⟨.done (.resume (.ok (.stopped (stopInfoFromEvent body)))), .running, rx,
        some w⟩)) := by
    refine act_poll parked ?_
    change (((k₁.link.shared.stopWaiter.chan w).poll).map _ : Option (Connection × Fut)) = _
    rw [sent]
    rfl
  exact ⟨_, .cons trivial reads (.single trivial takes), rx, some w, Function.update_self ..⟩

/-- What a pause reports. -/
def pauseRequested : ToolOutcome :=
  .json (.object [("status", .string "pause_requested"),
    ("message", .string ("Pause request sent. The running continue/step operation " ++
      "will return when the process stops."))])

/-- A pause that the adapter grants while a continue or step is blocked, and the stop that it
brings about. -/
def interruption (t r b : Nat) (seq : Int) (body : StoppedBody) : List (System.Action lldb) :=
  [.call t .pause] ++ proceed t 2 ++ (pauseExchange t seq).map (onConn b) ++ [.task t .reply] ++
    [.conn b (.receive (.event (.stopped body))), .conn b (.poll r .go), .task r .reply] ++
    proceed r 3

/-- The way of the pause up to its reply. -/
theorem pause_requested {args : ResumeArgs} {g : UInt64}
    (reach : Reach ToolServer.step ToolServer.new s)
    (fresh : s.tasks t = none) (at_ : s.tasks r = some (.resume (.resuming args b g)))
    (slot : s.backend = some b) (running : s.session.state = .running)
    (here : s.conns b = some k) (blocked : Blocked k r) :
    ∃ s' k', Run ToolServer.step anyStep s ([.call t .pause] ++ proceed t 2 ++
        (pauseExchange t (k.link.shared.seq + 1)).map (onConn b) ++ [.task t .reply]) s' ∧
      s'.tasks = Function.update s.tasks t (some (.done pauseRequested)) ∧
      s'.session = s.session ∧ s'.backend = s.backend ∧ s'.tokens = s.tokens ∧
      s'.conns b = some k' ∧ Blocked k' r := by
  have apart : t ≠ r := by
    rintro rfl
    cases fresh.symm.trans at_
  have uncalled : k.calls t = none := by
    cases call : k.calls t with
    | none => rfl
    | some f =>
      obtain ⟨pc, there, -⟩ := call_awaited reach here call
      cases fresh.symm.trans there
  let s₁ : ToolServer lldb :=
    { s with tasks := Function.update s.tasks t (some (.pause .guardRunning)) }
  have called : s.step (.call t .pause) = some s₁ := by
    simp only [ToolServer.step, fresh]
    rfl
  let s₂ := s₁.goOn t (.pause .guardRunning) (.pause .currentBackend) none
  have admitted : s₁.step (.task t .go) = some s₂ := by
    refine task_goes (Function.update_self ..) ?_
    have guard : s₁.session.checkState [.running] = .ok () :=
      SessionManager.checkState_ok.mpr (List.mem_singleton.mpr running)
    simp only [Pc.next, PausePc.next, guard]
    rfl
  let k₀ := k.setCall t (some (Fut.new Call.pause.program))
  let s₃ := s₂.goOn t (.pause .currentBackend) (.pause (.pausing b)) (some (b, k₀))
  have begun : s₂.step (.task t .go) = some s₃ := by
    refine task_goes (Function.update_self ..) ?_
    have taken : s₂.backend = some b := slot
    have there : s₂.conns b = some k := here
    have started : k.start t Call.pause.program = some k₀ := by
      simp only [Connection.start, uncalled]
      rfl
    simp only [Pc.next, PausePc.next, taken, World.startCall, there, Option.bind_some, started]
    rfl
  have still : Blocked k₀ r := by
    obtain ⟨rx, w, parked, waits⟩ := blocked.parked
    exact ⟨blocked.reading, rx, w, (Function.update_of_ne apart.symm ..).trans parked, waits⟩
  obtain ⟨k₁, exchanged, blocked₁, rx, waiter, done⟩ :=
    pause_exchanged still apart (Function.update_self ..)
  let s₄ : ToolServer lldb := { s₃ with conns := Function.update s₃.conns b (some k₁) }
  have there : s₃.conns b = some k₀ := Function.update_self ..
  have run := conn_run there exchanged
  let s₅ := s₄.goOn t (.pause (.pausing b)) (.done pauseRequested) (some (b, k₁.setCall t none))
  have replied : s₄.step (.task t .reply) = some s₅ := by
    refine task_goes (Function.update_self ..) ?_
    have here₄ : s₄.conns b = some k₁ := Function.update_self ..
    have finished : k₁.finish t = some (.pause (.ok ()), k₁.setCall t none) := by
      simp only [Connection.finish, done]
    simp only [Pc.next, PausePc.next, World.takeReply, here₄, Option.bind_some, finished]
    rfl
  refine ⟨s₅, k₁.setCall t none, ?_, ?_, rfl, rfl, rfl, Function.update_self .., ?_⟩
  · exact ((Run.cons trivial called (.cons trivial admitted (.single trivial begun))).append
      run).append (.single trivial replied)
  · change Function.update (Function.update (Function.update (Function.update s.tasks t _) t _) t _)
      t _ = _
    simp only [Function.update_idem]
  · obtain ⟨rx, w, parked, waits⟩ := blocked₁.parked
    exact ⟨blocked₁.reading, rx, w, (Function.update_of_ne apart.symm ..).trans parked, waits⟩

/-- The way of a blocked continue or step from the stop to its return. -/
theorem resume_returned {args : ResumeArgs} (at_ : s.tasks r =
      some (.resume (.resuming args b s.session.generation))) (here : s.conns b = some k)
    (blocked : Blocked k r) (body : StoppedBody) :
    ∃ s', Run ToolServer.step anyStep s ([.conn b (.receive (.event (.stopped body))),
        .conn b (.poll r .go), .task r .reply] ++ proceed r 3) s' ∧
      s'.tasks = Function.update s.tasks r (some (.done (.json (.object (mergeOutput
        (stoppedResponse (stopInfoFromEvent body)) s.session.output.drain.1))))) ∧
      s'.session.state = .stopped ∧
      s'.session.lastStopped = some (stopInfoFromEvent body) ∧ s'.backend = s.backend := by
  obtain ⟨k₁, exchanged, rx, waiter, done⟩ := stop_exchanged blocked body
  let info := stopInfoFromEvent body
  let g := s.session.generation
  let s₁ : ToolServer lldb := { s with conns := Function.update s.conns b (some k₁) }
  have run := conn_run here exchanged
  let s₂ := s₁.goOn r (.resume (.resuming args b g)) (.resume (.applyStopped g info))
    (some (b, k₁.setCall r none))
  have replied : s₁.step (.task r .reply) = some s₂ := by
    refine task_goes at_ ?_
    have there : s₁.conns b = some k₁ := Function.update_self ..
    have finished : k₁.finish r = some (.resume (.ok (.stopped info)), k₁.setCall r none) := by
      simp only [Connection.finish, done]
      rfl
    simp only [Pc.next, ResumePc.next, World.takeReply, there, Option.bind_some, finished]
    rfl
  let s₃ := s₂.goOn r (.resume (.applyStopped g info)) (.resume (.cacheStopped g info)) none
  have applied : s₂.step (.task r .go) = some s₃ := by
    refine task_goes (Function.update_self ..) ?_
    have current : (s₂.session.setStateIfGeneration g .stopped).2 = true := by
      have same : s₂.session.generation = g := rfl
      simp [SessionManager.setStateIfGeneration, same]
    simp only [Pc.next, ResumePc.next, current, if_true]
    rfl
  let s₄ := s₃.goOn r (.resume (.cacheStopped g info)) (.resume (.drainStopped g info)) none
  have cached : s₃.step (.task r .go) = some s₄ := task_goes (Function.update_self ..) rfl
  let s₅ := s₄.goOn r (.resume (.drainStopped g info)) (.done (.json (.object (mergeOutput
    (stoppedResponse info) s.session.output.drain.1)))) none
  have session₃ : s₃.session = { s.session with state := .stopped } := by
    change ((s.session.setStateIfGeneration g .stopped).1) = _
    simp [SessionManager.setStateIfGeneration, g]
  have session₄ : s₄.session = { s.session with state := .stopped, lastStopped := some info } := by
    change s₃.session.setLastStopped info = _
    rw [session₃]
    rfl
  have drained : s₄.step (.task r .go) = some s₅ := by
    refine task_goes (Function.update_self ..) ?_
    have output : s₄.session.output = s.session.output := by rw [session₄]
    simp only [Pc.next, ResumePc.next, output]
    rfl
  have session₅ : s₅.session =
      { s.session with
        state := .stopped, lastStopped := some info, output := s.session.output.drain.2 } := by
    change { s₄.session with output := s₄.session.output.drain.2 } = _
    rw [session₄]
  refine ⟨s₅, ?_, ?_, by rw [session₅], by rw [session₅], rfl⟩
  · exact run.append (.cons trivial replied (.cons trivial applied (.cons trivial cached
      (.single trivial drained))))
  · change Function.update (Function.update (Function.update (Function.update s.tasks r _) r _) r _)
      r _ = _
    simp only [Function.update_idem]
    rfl

/-- A pause gets a running debuggee back: while a continue or step is blocked on the connection of
the session, a pause that the adapter grants is returned, and with the stop that follows the
blocked call returns it and the session records it. The pause returns first. -/
theorem pause_interrupts {args : ResumeArgs} (reach : Reach ToolServer.step ToolServer.new s)
    (fresh : s.tasks t = none)
    (at_ : s.tasks r = some (.resume (.resuming args b s.session.generation)))
    (slot : s.backend = some b) (running : s.session.state = .running)
    (here : s.conns b = some k) (blocked : Blocked k r) (body : StoppedBody) :
    ∃ s', Run ToolServer.step anyStep s (interruption t r b (k.link.shared.seq + 1) body) s' ∧
      s'.tasks t = some (.done pauseRequested) ∧
      s'.tasks r = some (.done (.json (.object (mergeOutput
        (stoppedResponse (stopInfoFromEvent body)) s.session.output.drain.1)))) ∧
      s'.session.state = .stopped ∧
      s'.session.lastStopped = some (stopInfoFromEvent body) ∧ s'.backend = some b := by
  have apart : r ≠ t := by
    rintro rfl
    cases fresh.symm.trans at_
  obtain ⟨s₁, k₁, first, tasks₁, session₁, backend₁, -, here₁, blocked₁⟩ :=
    pause_requested reach fresh at_ slot running here blocked
  have still : s₁.tasks r = some (.resume (.resuming args b s₁.session.generation)) := by
    rw [tasks₁, Function.update_of_ne apart, at_, session₁]
  obtain ⟨s₂, second, tasks₂, state, last, backend₂⟩ :=
    resume_returned still here₁ blocked₁ body
  refine ⟨s₂, ?_, ?_, ?_, state, last, backend₂.trans (backend₁.trans slot)⟩
  · have run := first.append second
    simpa only [interruption, List.append_assoc] using run
  · rw [tasks₂, Function.update_of_ne apart.symm, tasks₁, Function.update_self]
  · rw [tasks₂, Function.update_self, session₁]

end

/-- A launch that stops at the entry, and a continue up to its wait for the next stop. -/
def continued : List (System.Action lldb) :=
  launchCall 0 true ++ handshake 0 true ++ launchStopped 0 ++
    [.call 1 (.resume ⟨.cont, .ok none, none⟩)] ++ proceed 1 5 ++ [poll 0 1] ++ exchange 0 1 5

/-- A continue waits for the next stop, a pause is granted, and both are returned. -/
theorem pause_interrupts_continue : ∃ (s s' : ToolServer lldb) (k : Connection),
    Run ToolServer.step anyStep ToolServer.new continued s ∧ s.conns 0 = some k ∧ Blocked k 1 ∧
    Run ToolServer.step anyStep s (interruption 2 1 0 6 ⟨"pause", "", 1, "", true, []⟩) s' ∧
    s'.tasks 2 = some (.done pauseRequested) ∧ s'.session.state = .stopped := by
  have eval : ∃ next, (exec ToolServer.step anyStep (ToolServer.new : ToolServer lldb)
      continued).map (fun s =>
      ((s.tasks 2, s.tasks 1, s.backend, s.session.state, s.session.generation),
        (s.conns 0).map fun k =>
          (k.calls 1, k.link.shared.stopWaiter.slot, k.link.loop, k.link.shared.seq))) =
      some ((none, some (.resume (.resuming ⟨.cont, .ok none, none⟩ 0 0)), some 0, .running, 0),
        some (some ⟨.op .recvStop next, .running, none, some 1⟩, some 1, .reading, 5)) ∧
      ∀ r, next r = resumed r :=
    ⟨_, rfl, fun r => by cases r <;> rfl⟩
  obtain ⟨next, eval, same⟩ := eval
  obtain rfl : next = resumed := funext same
  obtain ⟨s, taken, seen⟩ := Option.map_eq_some_iff.mp eval
  obtain ⟨world, wire⟩ := Prod.mk.inj seen
  obtain ⟨k, here, link⟩ := Option.map_eq_some_iff.mp wire
  simp only [Prod.mk.injEq] at world link
  obtain ⟨fresh, at_, slot, running, generation⟩ := world
  obtain ⟨parked, waits, reading, seq⟩ := link
  have run := run_of_exec taken
  have blocked : Blocked k 1 := ⟨reading, none, 1, parked, waits⟩
  rw [← generation] at at_
  obtain ⟨s', interrupted, paused, -, stopped, -, -⟩ :=
    pause_interrupts ⟨_, run⟩ fresh at_ slot running here blocked ⟨"pause", "", 1, "", true, []⟩
  rw [seq] at interrupted
  exact ⟨s, s', k, run, here, blocked, interrupted, paused, stopped⟩

end LldbDebugMcp.Server.Interrupt
