/- module: LldbDebugMcp/Backend/Attach
   source: crates/lldb-backend/src/backend.rs
   digest: The attach handshake returns the first outcome since its stop waiter was registered. -/

import LldbDebugMcp.Backend.Follow

set_option autoImplicit false
set_option relaxedAutoImplicit false

namespace LldbDebugMcp.Backend.Attach

open LldbDebugMcp.Core.Types
open LldbDebugMcp.Client.Message
open LldbDebugMcp.Client.ReadLoop
open LldbDebugMcp.Library.Channel
open LldbDebugMcp.Library.Transition
open LldbDebugMcp.Backend
open LldbDebugMcp.Backend.Operations
open LldbDebugMcp.Backend.Script
open LldbDebugMcp.Backend.Adapter
open LldbDebugMcp.Backend.Steps
open LldbDebugMcp.Backend.Follow

variable {spec : AttachSpec} {pid : Option Int} {as : List Action} {c c' : Connection}

/-- The connection on which an attach has begun. -/
def attaching (spec : AttachSpec) (pid : Option Int) : Connection :=
  begun pid (Call.attach spec).program

/-- The adapter has been sent `configurationDone`. -/
def Configured (c : Connection) : Prop := ∃ r ∈ c.link.wire, r.command = "configurationDone"

instance (c : Connection) : Decidable (Configured c) :=
  inferInstanceAs (Decidable (∃ r ∈ c.link.wire, r.command = "configurationDone"))

/-- An outcome that is dispatched once the adapter has been sent `configurationDone`. -/
def configured (c : Connection) (a : Action) : List StopOutcome :=
  if Configured c then delivers c a else []

/-- The outcomes since `configurationDone`: those before the stop waiter was registered, and
those since. -/
def Outcomes (spec : AttachSpec) (pid : Option Int) (as : List Action)
    (early late : List StopOutcome) : Prop :=
  ∃ bs cs m, as = bs ++ go :: cs ∧ Run Connection.step Cooperative (attaching spec pid) bs m ∧
    Registers m ∧ m.link.wire = stamp (attachRequests spec) ∧
    early = emits Connection.step configured (attaching spec pid) bs ∧
    late = emits Connection.step delivers m (go :: cs) ∧
    emits Connection.step configured (attaching spec pid) as = early ++ late

/-- The call is parked on a stop waiter that nothing was sent to. -/
def Parked (c : Connection) : Prop :=
  ∃ f next w, c.calls 0 = some f ∧ f.program = .op .recvStop next ∧ f.waiter = some w ∧
    c.link.shared.stopWaiter.chan w = .empty

/-- The first outcome since `configurationDone` is the one that attach returns, and attach does
not wait for another. -/
def ReturnsFirst (spec : AttachSpec) (pid : Option Int) (as : List Action) (c : Connection) :
    Prop :=
  ∀ o, (emits Connection.step configured (attaching spec pid) as).head? = some o →
    (∀ reply c', c.finish 0 = some (reply, c') → reply = .attach (.ok (attachedOutcome o))) ∧
    ¬ Parked c

theorem Outcomes.all {early late : List StopOutcome} (outcomes : Outcomes spec pid as early late) :
    emits Connection.step configured (attaching spec pid) as = early ++ late := by
  obtain ⟨-, -, -, -, -, -, -, -, -, all⟩ := outcomes
  exact all

theorem Configured.grows (configured : Configured c) (grows : Grows c.link c'.link) :
    Configured c' := by
  obtain ⟨r, mem, command⟩ := configured
  exact ⟨r, grows.wire r mem, command⟩

/-- From then on every outcome counts. -/
theorem emits_configured {m : Connection} (run : Run Connection.step Cooperative m as c)
    (sent : Configured m) :
    emits Connection.step configured m as = emits Connection.step delivers m as := by
  induction run with
  | nil => rfl
  | @cons m n k a as allowed taken rest ih =>
    simp only [emits, taken, Option.map_some, Option.getD_some, configured, if_pos sent]
    rw [ih (sent.grows (moves_of_step taken).grows)]

private theorem attach_register {done rest : List Op}
    (place : attachScript spec = done ++ .register :: rest) :
    requestsOf done = attachRequests spec := by
  have split : attachScript spec = (attachScript spec).take 6 ++ .register :: [.recvStop] := rfl
  rw [split] at place
  obtain ⟨rfl, -⟩ := (List.append_cons_inj_of_notMem (by simp [attachScript]) (by simp)).mp place
  rfl

theorem attach_wellFormed (spec : AttachSpec) : WellFormed (attachScript spec) where
  plain i mem := by
    simp only [attachScript, List.mem_cons, List.not_mem_nil, or_false] at mem
    rcases mem with rfl | rfl | rfl | rfl | rfl | rfl | rfl | rfl <;> simp
  reply _ _ place := reply_after_opening place
  stop done rest place := by
    have split : attachScript spec = (attachScript spec).take 7 ++ .recvStop :: [] := rfl
    rw [split] at place
    obtain ⟨rfl, -⟩ := (List.append_cons_inj_of_notMem (by simp [attachScript]) (by simp)).mp place
    simp [attachScript]
  once done rest place := by
    have split : attachScript spec = (attachScript spec).take 6 ++ .register :: [.recvStop] := rfl
    rw [split] at place
    obtain ⟨rfl, -⟩ := (List.append_cons_inj_of_notMem (by simp [attachScript]) (by simp)).mp place
    simp [attachScript]
  init _ _ place := init_after_opening rfl place

theorem attach_executes (spec : AttachSpec) :
    Executes (attachScript spec) (fun heard => .attach (attachConclusion heard)) none
      (Call.attach spec).program :=
  (runAttach_executes spec).reply Reply.attach

/-- What was dispatched before the waiter was registered, and what since. -/
theorem outcomes_of_since {log : List StopOutcome}
    (run : Run Connection.step Cooperative (attaching spec pid) as c)
    (since : Since pid (Call.attach spec).program (attachRequests spec) as log) :
    ∃ early, Outcomes spec pid as early log := by
  obtain ⟨bs, cs, m, rfl, before, registers, wire, rfl⟩ := since
  refine ⟨_, bs, cs, m, rfl, before, registers, wire, rfl, rfl, ?_⟩
  obtain ⟨m', before', after⟩ := run.split
  obtain rfl := before.last_eq before'
  have sent : Configured m := by
    rw [Configured, wire]
    exact ⟨Requests.configurationDone.setSeq 4, by simp [stamp, attachRequests], rfl⟩
  rw [before'.emits_append, emits_configured after sent]

/-- What has come of an attach: what is on the wire, whether it can go on, and its reply. -/
structure Attached (spec : AttachSpec) (pid : Option Int) (as : List Action) (c : Connection) :
    Prop where
  wire : c.link.wire <+: stamp (attachRequests spec)
  configured : 2 < c.link.wire.length → c.link.shared.fired = true
  bounded : as.countP isPoll ≤ 3 * (attachScript spec).length
  /-- The call is done or can be polled, unless the adapter owes it a message. -/
  goes_on : (∃ reply, c.finish 0 = some (reply, c.setCall 0 none)) ∨
    (∃ choice c', Cooperative c (.act (.poll 0 choice)) ∧
      c.step (.act (.poll 0 choice)) = some c') ∨
    Waits pid (Call.attach spec).program (attachScript spec) as c
  written : ∀ reply c', c.finish 0 = some (reply, c') → c.link.wire = stamp (attachRequests spec)
  /-- A call that waits for an outcome is parked as long as none came since the waiter was
  registered. -/
  waiting : ∀ f next, c.calls 0 = some f → f.program = .op .recvStop next →
    ∃ early late, Outcomes spec pid as early late ∧ (Parked c ↔ late = []) ∧
      (early = [] → ReturnsFirst spec pid as c)
  /-- The reply is the first outcome since the waiter was registered, and the first one since
  `configurationDone` when none came before that. -/
  returned : ∀ reply c', c.finish 0 = some (reply, c') →
    ∃ early o log, Outcomes spec pid as early (o :: log) ∧
      reply = .attach (.ok (attachedOutcome o)) ∧ (early = [] → ReturnsFirst spec pid as c)

/-- Attach returns the first outcome since it registered its stop waiter. -/
theorem attach_returns_since (spec : AttachSpec) (pid : Option Int) (as : List Action)
    (c : Connection) (run : Run Connection.step Cooperative (attaching spec pid) as c) :
    Attached spec pid as c := by
  have follows := follows (attach_wellFormed spec) (attach_executes spec) run
  refine ⟨follows.wire, fun written => follows.waits [.send Requests.initializeRequest,
    .sendAsync _] _ rfl written, follows.bounded, follows.goes_on, follows.written, ?_, ?_⟩
  · intro f next here at_
    obtain ⟨w, done, rest, log, mine, place, since, chan⟩ := follows.parked f next here at_
    rw [attach_register place] at since
    obtain ⟨early, outcomes⟩ := outcomes_of_since run since
    have parked : Parked c ↔ log = [] := by
      constructor
      · rintro ⟨f', next', w', here', -, mine', empty⟩
        obtain rfl := Option.some.inj (here.symm.trans here')
        obtain rfl : w = w' := Option.some.inj (mine.symm.trans mine')
        rw [chan] at empty
        cases log with
        | nil => rfl
        | cons o log => cases empty
      · rintro rfl
        exact ⟨f, next, w, here, at_, mine, chan⟩
    refine ⟨early, log, outcomes, parked, ?_⟩
    rintro rfl o first
    refine ⟨fun reply c' finish => ?_, fun stuck => ?_⟩
    · obtain ⟨f', here', finished, -⟩ := finish_eq finish
      obtain rfl := Option.some.inj (here.symm.trans here')
      rw [at_] at finished
      cases finished
    · rw [outcomes.all, parked.mp stuck] at first
      cases first
  · intro reply c' finish
    obtain ⟨done, rest, o, log, place, since, rfl⟩ :=
      follows.told reply c' finish (by simp [attachScript])
    rw [attach_register place] at since
    obtain ⟨early, outcomes⟩ := outcomes_of_since run since
    refine ⟨early, o, log, outcomes, rfl, ?_⟩
    rintro rfl o' first
    rw [outcomes.all] at first
    obtain rfl : o = o' := Option.some.inj first
    refine ⟨fun reply c'' finish' => ?_, ?_⟩
    · rw [finish] at finish'
      cases finish'
      rfl
    · rintro ⟨f, next, w, here, at_, -⟩
      obtain ⟨f', here', finished, -⟩ := finish_eq finish
      obtain rfl := Option.some.inj (here.symm.trans here')
      rw [at_] at finished
      cases finished

private def attachSpec : AttachSpec := ⟨some 4321, none⟩

/-- The handshake up to `configurationDone`. -/
private def configures : List Action :=
  exchange 1 "initialize" ++ [go, write, .act (.receive (.event .initialized)), go] ++
  exchange 3 "setExceptionBreakpoints" ++ [go, write]

private def stops : Action :=
  .act (.receive (.event (.stopped ⟨"signal", "", 1, "", true, []⟩)))

private theorem configures_stops :
    ((exec Connection.step Cooperative (attaching attachSpec none)
      (configures ++ [answer 4 "configurationDone", go, answer 2 "attach", go, go, stops, go])).bind
      (·.finish 0)).map (fun p => match p.1 with
        | .attach (.ok (.stopped info)) => info.threadId
        | _ => 0) = some 1 := by
  decide +kernel

theorem attach_returns_since_stopped :
    ∃ c as o, Run Connection.step Cooperative (attaching attachSpec none) as c ∧
      Attached attachSpec none as c ∧
      (c.finish 0).map (·.1) = some (.attach (.ok (attachedOutcome o))) := by
  obtain ⟨p, finished, -⟩ := Option.map_eq_some_iff.mp configures_stops
  obtain ⟨c, executed, finish⟩ := Option.bind_eq_some_iff.mp finished
  have run := run_of_exec executed
  have attached := attach_returns_since attachSpec none _ c run
  obtain ⟨-, o, -, -, eq, -⟩ := attached.returned p.1 p.2 finish
  exact ⟨c, _, o, run, attached, by rw [finish, Option.map_some, eq]⟩

/-- The stop comes before the deferred attach response, and so before the registration. -/
private def stopsEarly : List Action :=
  configures ++ [stops, answer 4 "configurationDone", go, answer 2 "attach", go, go]

private theorem stopsEarly_parks :
    (exec Connection.step Cooperative (attaching attachSpec none) stopsEarly).map (fun c =>
      ((emits Connection.step configured (attaching attachSpec none) stopsEarly).length,
        (c.calls 0).bind fun f => f.waiter.map fun w =>
          (match f.program with
            | .op .recvStop _ => true
            | _ => false, c.link.shared.stopWaiter.chan w))) =
      some (1, some (true, .empty)) := by
  decide +kernel

/-- A stop between `configurationDone` and the registration leaves attach parked. -/
theorem attach_misses_first :
    ¬ ∀ spec pid as c, Run Connection.step Cooperative (attaching spec pid) as c →
      ReturnsFirst spec pid as c := by
  intro returns
  obtain ⟨c, executed, eq⟩ := Option.map_eq_some_iff.mp stopsEarly_parks
  obtain ⟨one, parked⟩ := Prod.mk.inj eq
  obtain ⟨o, all⟩ := List.length_eq_one_iff.mp one
  obtain ⟨f, here, rest⟩ := Option.bind_eq_some_iff.mp parked
  obtain ⟨w, mine, eq⟩ := Option.map_eq_some_iff.mp rest
  obtain ⟨at_, empty⟩ := Prod.mk.inj eq
  refine (returns attachSpec none stopsEarly c (run_of_exec executed) o (by rw [all]; rfl)).2 ?_
  cases program : f.program with
  | done reply =>
    rw [program] at at_
    cases at_
  | op i next =>
    rw [program] at at_
    cases i with
    | recvStop => exact ⟨f, next, w, here, program, mine, empty⟩
    | _ => cases at_

end LldbDebugMcp.Backend.Attach
