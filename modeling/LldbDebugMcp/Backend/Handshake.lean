/- module: LldbDebugMcp/Backend/Handshake
   source: crates/lldb-backend/src/backend.rs, crates/dap-client/src/client.rs
   digest: What becomes of a launch or attach that waits for the initialized event. -/

import LldbDebugMcp.Backend.AfterWait
import LldbDebugMcp.Backend.Follow
import LldbDebugMcp.Backend.Recovery

set_option autoImplicit false
set_option relaxedAutoImplicit false

namespace LldbDebugMcp.Backend.Handshake

open LldbDebugMcp.Core.Types
open LldbDebugMcp.Client.Message
open LldbDebugMcp.Client.State
open LldbDebugMcp.Client.ReadLoop
open LldbDebugMcp.Library.Channel
open LldbDebugMcp.Library.Effect
open LldbDebugMcp.Library.Transition
open LldbDebugMcp.Backend
open LldbDebugMcp.Backend.Operations
open LldbDebugMcp.Backend.Adapter
open LldbDebugMcp.Backend.Steps
open LldbDebugMcp.Backend.Parts (Accepted)
open LldbDebugMcp.Backend.Stages
open LldbDebugMcp.Backend.AfterWait
open LldbDebugMcp.Backend.Follow (Cooperative cooperative_go)
open LldbDebugMcp.Backend.Recovery (hasDrained)

variable {c c' : Connection} {f : Fut} {t w : Nat}

/-- The call takes its steps, and the adapter accepts what it is asked. -/
def Goes (t : Nat) (c : Connection) (a : Action) : Prop :=
  Cooperative c a ∧ ∀ s choice, a = .act (.poll s choice) → s = t

/-- Such steps can take the call to an error. -/
def Fails (c : Connection) (t : Nat) : Prop :=
  ∃ as d f reply, Run Connection.step (Goes t) c as d ∧ d.calls t = some f ∧
    f.program = .done reply ∧ Failed reply

/-- The response to the launch or attach request was dispatched, with `success=false`. -/
def Refused (c : Connection) (f : Fut) : Prop :=
  ∃ q response, f.rx = some q ∧ c.link.shared.replies q = .sent (.ok (.response response)) ∧
    response.success = false

/-- The initialized event was dispatched, or another wait has taken the latch over. -/
def Opened (c : Connection) (w : Nat) : Prop :=
  c.link.shared.fired = true ∨ c.link.shared.initialized.slot ≠ some w

/-- The call is at a request, and goes on when it is accepted. -/
structure Asks (f : Fut) (request : Request) (rest : PendingResult → Dap Reply) : Prop where
  at_ : f.program = .op (.send request) rest
  goes : ∀ message, Accepted request.command message →
    Program.Safe courseOk courseAfter courseDone .asking (rest (.ok message))

/-- The request was accepted. -/
def Granted (shared : Shared) (q : Int) (request : Request) : Prop :=
  ∃ message, Accepted request.command message ∧ Replied q (.sent (.ok message)) shared

/-- Where such a call can be. -/
inductive Position (l : Link) (f : Fut) : Prop where
  | ready {g : Course} (course : g = .asking ∨ g = .failing) (ready : Ready f)
      (safe : Program.Safe courseOk courseAfter courseDone g f.program)
  | writing {request : Request} {rest : PendingResult → Dap Reply} {q : Int}
      (asks : Asks f request rest) (await : f.await = .writing q)
      (pending : q ∈ l.shared.pending) (unwritten : ∀ r ∈ l.wire, r.seq ≠ q)
  | awaiting {request : Request} {rest : PendingResult → Dap Reply} {q : Int}
      (asks : Asks f request rest) (await : f.await = .awaiting q)
      (written : ∃ r ∈ l.wire, r.seq = q)
      (alone : ∀ r ∈ l.wire, r.seq = q → r.command = request.command)
      (reply : q ∈ l.shared.pending ∨ Granted l.shared q request)

/-- The call is on its way to the response that refuses its launch or attach request. -/
structure Bound (c : Connection) (t : Nat) (f : Fut) : Prop where
  sound : Sound c
  here : c.calls t = some f
  early : hasDrained c.link.loop = false
  refused : ∃ q response, f.rx = some q ∧
    Replied q (.sent (.ok (.response response))) c.link.shared ∧ response.success = false
  position : Position c.link f

private theorem asks_of_safe {request : Request} {rest : PendingResult → Dap Reply}
    (at_ : f.program = .op (.send request) rest)
    (safe : Program.Safe courseOk courseAfter courseDone .asking f.program) :
    Asks f request rest := by
  refine ⟨at_, fun message accepted => ?_⟩
  rw [at_] at safe
  have goes : courseAfter .asking (.send request) (.ok message) = .asking := if_pos accepted
  exact goes ▸ safe.2 (.ok message)

private theorem Asks.moved {request : Request} {rest : PendingResult → Dap Reply} {await : Await}
    (asks : Asks f request rest) : Asks { f with await := await } request rest :=
  ⟨asks.at_, asks.goes⟩

private theorem not_busy {w : Await} (ready : Ready f) (await : f.await = w)
    (busy : ¬ (w = .created ∨ w = .running)) : False := by
  subst await
  exact busy ready

/-- A call between two operations, while its requests are accepted. -/
private theorem position_asking {k : Connection} {f' : Fut} {choice : Choice}
    (bound : Bound c t f) (ready : Ready f)
    (safe : Program.Safe courseOk courseAfter courseDone .asking f.program)
    (advances : Advances c f choice k f') : Position k.link f' := by
  cases advances with
  | registered _ at_ =>
    refine .writing (asks_of_safe at_ safe).moved rfl (Finset.mem_insert_self _ _) fun r hr eq => ?_
    have le := (bound.sound.link.wire r hr).2
    omega
  | registeredStop _ at_ =>
    rw [at_] at safe
    exact .ready (.inl rfl) (.inr rfl) (safe.2 ())
  | @gotReply next seq r _ at_ rx settled =>
    obtain ⟨q, response, rx', replied, failed⟩ := bound.refused
    obtain rfl := Option.some.inj (rx.symm.trans rx')
    rw [replied.reply] at settled
    obtain rfl := Option.some.inj settled
    rw [at_] at safe
    have fails : courseAfter .asking .recvReply (some (.ok (.response response))) = .failing := by
      simp [courseAfter, failed]
    exact .ready (.inr rfl) (.inr rfl) (fails ▸ safe.2 (some (.ok (.response response))))
  | registeredAsync _ at_ | latched _ at_ | parked _ at_ | gotStop _ at_ | stderr _ at_
  | tookChild _ at_ | killed _ at_ | reaped _ at_ =>
    rw [at_] at safe
    exact safe.1.elim
  | accepted await | acceptedAsync await | refused await | refusedAsync await | replied await
  | woken await => exact (not_busy ready await (by simp)).elim

/-- A call that makes the text of its error. -/
private theorem position_failing {k : Connection} {f' : Fut} {choice : Choice} (ready : Ready f)
    (safe : Program.Safe courseOk courseAfter courseDone .failing f.program)
    (advances : Advances c f choice k f') : Position k.link f' := by
  cases advances with
  | stderr _ at_ =>
    rw [at_] at safe
    exact .ready (.inr rfl) (.inr rfl) (safe.2 _)
  | registered _ at_ | registeredStop _ at_ | gotReply _ at_ | registeredAsync _ at_ | latched _ at_
  | parked _ at_ | gotStop _ at_ | tookChild _ at_ | killed _ at_ | reaped _ at_ =>
    rw [at_] at safe
    exact safe.1.elim
  | accepted await | acceptedAsync await | refused await | refusedAsync await | replied await
  | woken await => exact (not_busy ready await (by simp)).elim

private theorem position_writing {k : Connection} {f' : Fut} {choice : Choice} {request : Request}
    {rest : PendingResult → Dap Reply} {q : Int} (asks : Asks f request rest)
    (await : f.await = .writing q) (pending : q ∈ c.link.shared.pending)
    (unwritten : ∀ r ∈ c.link.wire, r.seq ≠ q) (writes : ∀ message, choice ≠ .refuse message)
    (advances : Advances c f choice k f') : Position k.link f' := by
  cases advances with
  | accepted await' at_ =>
    obtain rfl := Await.writing.inj (await.symm.trans await')
    cases asks.at_.symm.trans at_
    refine .awaiting asks.moved rfl ⟨_, mem_accept _ _, rfl⟩ (fun r hr eq => ?_) (.inl pending)
    rcases List.mem_append.mp hr with old | new
    · exact absurd eq (unwritten r old)
    · obtain rfl := List.mem_singleton.mp new
      rfl
  | acceptedAsync _ at_ => cases asks.at_.symm.trans at_
  | refused | refusedAsync => exact absurd rfl (writes _)
  | replied await' | woken await' => cases await.symm.trans await'
  | registered ready | registeredAsync ready | latched ready | parked ready
  | registeredStop ready | gotReply ready | gotStop ready | stderr ready | tookChild ready
  | killed ready | reaped ready => exact (not_busy ready await (by simp)).elim

private theorem position_awaiting {k : Connection} {f' : Fut} {choice : Choice}
    (sound : Sound c) {request : Request} {rest : PendingResult → Dap Reply} {q : Int}
    (asks : Asks f request rest) (await : f.await = .awaiting q)
    (reply : q ∈ c.link.shared.pending ∨ Granted c.link.shared q request)
    (advances : Advances c f choice k f') : Position k.link f' := by
  cases advances with
  | replied await' at_ settled =>
    obtain rfl := Await.awaiting.inj (await.symm.trans await')
    cases asks.at_.symm.trans at_
    rcases reply with pending | ⟨message, accepted, replied⟩
    · rw [sound.link.shared.waiting q pending] at settled
      cases settled
    · rw [replied.reply] at settled
      obtain rfl := Option.some.inj settled
      exact .ready (.inl rfl) (.inr rfl) (asks.goes message accepted)
  | accepted await' | acceptedAsync await' | refused await' | refusedAsync await'
  | woken await' => cases await.symm.trans await'
  | registered ready | registeredAsync ready | latched ready | parked ready
  | registeredStop ready | gotReply ready | gotStop ready | stderr ready | tookChild ready
  | killed ready | reaped ready => exact (not_busy ready await (by simp)).elim

private theorem position_advances {k : Connection} {f' : Fut} {choice : Choice}
    (bound : Bound c t f) (writes : ∀ message, choice ≠ .refuse message)
    (advances : Advances c f choice k f') : Position k.link f' := by
  cases bound.position with
  | ready course ready safe =>
    rcases course with rfl | rfl
    · exact position_asking bound ready safe advances
    · exact position_failing ready safe advances
  | writing asks await pending unwritten =>
    exact position_writing asks await pending unwritten writes advances
  | awaiting asks await _ _ reply => exact position_awaiting bound.sound asks await reply advances

/-- The receiver of the launch or attach request is kept. -/
private theorem rx_advances {k : Connection} {f' : Fut} {choice : Choice}
    (advances : Advances c f choice k f')
    (other : ∀ request next, f.program ≠ .op (.sendAsync request) next) : f'.rx = f.rx := by
  cases advances with
  | acceptedAsync _ at_ => exact absurd at_ (other _ _)
  | _ => rfl

private theorem never_async (position : Position c.link f) (request : Request)
    (next : Except BackendError Unit → Dap Reply) : f.program ≠ .op (.sendAsync request) next := by
  intro at_
  cases position with
  | ready course _ safe =>
    rw [at_] at safe
    rcases course with rfl | rfl <;> exact safe.1.elim
  | writing asks | awaiting asks => cases asks.at_.symm.trans at_

private theorem Bound.poll {k : Connection} {f' : Fut} {choice : Choice} (bound : Bound c t f)
    (writes : ∀ message, choice ≠ .refuse message) (advances : Advances c f choice k f') :
    Bound (k.setCall t (some f')) t f' where
  sound := bound.sound.moves (.poll bound.here advances)
  here := Function.update_self _ _ _
  early := (congrArg hasDrained advances.loop_eq.1).trans bound.early
  refused := by
    obtain ⟨q, response, rx, replied, failed⟩ := bound.refused
    exact ⟨q, response, (rx_advances advances (never_async bound.position)).trans rx,
      replied.moves (.poll bound.here advances), failed⟩
  position := show Position k.link f' from position_advances bound writes advances

/-- What the adapter and the read loop do to the client, before `recover`. -/
structure AdapterStep (c : Connection) (a : Action) (c' : Connection) : Prop where
  calls : c'.calls = c.calls
  wire : c'.link.wire = c.link.wire
  early : hasDrained c'.link.loop = false
  pending : ∀ q ∈ c.link.shared.pending, q ∈ c'.link.shared.pending ∨
    ∃ response, a = .act (.receive (.response response)) ∧ response.requestSeq = q ∧
      Replied q (.sent (.ok (.response response))) c'.link.shared

private theorem replied_dispatch {l : Link} (sound : LinkSound l) {response : Response}
    (pending : response.requestSeq ∈ l.shared.pending) :
    Replied response.requestSeq (.sent (.ok (.response response)))
      (l.dispatch (.response response)).shared := by
  simp only [Link.dispatch, Shared.dispatchResponse, if_pos pending]
  exact ⟨Finset.notMem_erase _ _, (sound.shared.pending_mem _ pending).2,
    Function.update_self _ _ _⟩

private theorem pending_dispatch {l : Link} (sound : LinkSound l) (message : DapMessage) {q : Int}
    (pending : q ∈ l.shared.pending) : q ∈ (l.dispatch message).shared.pending ∨
      ∃ response, message = .response response ∧ response.requestSeq = q ∧
        Replied q (.sent (.ok (.response response))) (l.dispatch message).shared := by
  cases message with
  | response response =>
    by_cases mine : response.requestSeq = q
    · subst mine
      exact .inr ⟨response, rfl, rfl, replied_dispatch sound pending⟩
    · left
      simp only [Link.dispatch, Shared.dispatchResponse]
      split
      · exact Finset.mem_erase.mpr ⟨fun eq => mine eq.symm, pending⟩
      · exact pending
  | event event =>
    left
    cases event with
    | terminated => simpa [Link.dispatch, Link.dispatchEvent] using pending
    | _ => exact pending
  | other => exact .inl pending

private theorem adapterStep {a : Action} (sound : Sound c) (early : hasDrained c.link.loop = false)
    (cooperative : Cooperative c a) (others : ∀ s choice, a ≠ .act (.poll s choice))
    (moves : Moves c a c') : AdapterStep c a c' := by
  cases moves with
  | start | cancel | finish | readError => exact cooperative.elim
  | poll => exact absurd rfl (others _ _)
  | pullOutput | pullTerminated | childExit | stderr =>
    exact ⟨rfl, rfl, early, fun _ pending => .inl pending⟩
  | @receive message reading =>
    refine ⟨rfl, (loopStep_dispatch _ _).wire, Recovery.hasDrained_dispatch reading _,
      fun q pending => ?_⟩
    refine (pending_dispatch sound.link message pending).imp_right ?_
    rintro ⟨response, rfl, mine, replied⟩
    exact ⟨response, rfl, mine, replied⟩
  | proceed proceeds =>
    unfold Link.proceed at proceeds
    split at proceeds
    · cases proceeds
      exact ⟨rfl, rfl, rfl, fun _ pending => .inl pending⟩
    · rename_i loop
      rw [loop] at early
      cases early
    · rename_i loop
      rw [loop] at early
      cases early
    · cases proceeds
    · cases proceeds

private theorem position_adapter {a : Action} (bound : Bound c t f) (cooperative : Cooperative c a)
    (moves : Moves c a c') (step : AdapterStep c a c') : Position c'.link f := by
  cases bound.position with
  | ready course ready safe => exact .ready course ready safe
  | @writing request rest q asks await pending unwritten =>
    refine .writing asks await ?_ (step.wire ▸ unwritten)
    refine (step.pending q pending).resolve_right ?_
    rintro ⟨response, rfl, mine, -⟩
    obtain ⟨-, r, hr, seq, -⟩ := cooperative
    exact unwritten r hr (seq.trans mine)
  | @awaiting request rest q asks await written alone reply =>
    refine .awaiting asks await (step.wire ▸ written) (step.wire ▸ alone) ?_
    rcases reply with pending | ⟨message, accepted, replied⟩
    · refine (step.pending q pending).imp_right ?_
      rintro ⟨response, rfl, mine, replied⟩
      obtain ⟨succeeded, r, hr, seq, command⟩ := cooperative
      exact ⟨.response response, ⟨succeeded, command.symm.trans (alone r hr (seq.trans mine))⟩,
        replied⟩
    · exact .inr ⟨message, accepted, replied.moves moves⟩

private theorem Bound.adapter {a : Action} (bound : Bound c t f) (cooperative : Cooperative c a)
    (others : ∀ s choice, a ≠ .act (.poll s choice)) (moves : Moves c a c') : Bound c' t f := by
  have step := adapterStep bound.sound bound.early cooperative others moves
  refine ⟨bound.sound.moves moves, (congrFun step.calls t).trans bound.here, step.early, ?_,
    position_adapter bound cooperative moves step⟩
  obtain ⟨q, response, rx, replied, failed⟩ := bound.refused
  exact ⟨q, response, rx, replied.moves moves, failed⟩

private theorem Fails.before {a : Action} (goes : Goes t c a) (taken : c.step a = some c')
    (fails : Fails c' t) : Fails c t := by
  obtain ⟨as, d, f, reply, run, rest⟩ := fails
  exact ⟨a :: as, d, f, reply, .cons goes taken run, rest⟩

section

variable {request : Request} {rest : PendingResult → Dap Reply} {q : Int}

/-- The call has gone on with its program. -/
private abbrev GoesOn (rest : PendingResult → Dap Reply) (t : Nat) : Prop :=
  ∀ r c f, f.program = rest r → Bound c t f → Fails c t

end

/-- A launch sends its launch request and waits. -/
def launchToWait : List Action :=
  [.start 0 (Call.program (.launch ⟨"/bin/demo", [], none, [], false, [], []⟩)),
    .act (.poll 0 .go), .act (.poll 0 .accept),
    .act (.receive (.response ⟨0, "response", 1, true, "initialize", "", none⟩)),
    .act (.poll 0 .go), .act (.poll 0 .go), .act (.poll 0 .accept), .act (.poll 0 .go)]

/-- What the receiver of a request has heard: whether it succeeded. -/
private def heard : OneShot PendingResult → Option Bool
  | .sent (.ok (.response response)) => some response.success
  | _ => none

/-- What a schedule comes to: where the launch is, its latch, the read loop and the outcome of
its launch request. -/
private def outcome (as : List Action) :
    Option (Option (Await × Option Int) × Bool × Phase × Option Bool) :=
  (exec Connection.step anyStep (Connection.new none) (launchToWait ++ as)).map fun c =>
    ((c.calls 0).map fun f => (f.await, f.rx),
      c.link.shared.fired || decide (c.link.shared.initialized.slot ≠ some 0), c.link.loop,
      heard (c.link.shared.replies 2))

private theorem outcome_eq {as : List Action} {opened : Bool} {loop : Phase}
    {success : Option Bool}
    (observed : outcome as = some (some (.parked 0, some 2), opened, loop, success)) :
    ∃ c f, exec Connection.step anyStep (Connection.new none) (launchToWait ++ as) = some c ∧
      c.calls 0 = some f ∧ f.await = .parked 0 ∧ f.rx = some 2 ∧ (Opened c 0 ↔ opened = true) ∧
      c.link.loop = loop ∧ heard (c.link.shared.replies 2) = success := by
  obtain ⟨c, executed, eq⟩ := Option.map_eq_some_iff.mp observed
  simp only [Prod.mk.injEq] at eq
  obtain ⟨here, rfl, phase, reply⟩ := eq
  obtain ⟨f, here, eq⟩ := Option.map_eq_some_iff.mp here
  simp only [Prod.mk.injEq] at eq
  exact ⟨c, f, executed, here, eq.1, eq.2, by simp [Opened], phase, reply⟩

end LldbDebugMcp.Backend.Handshake
