/- module: LldbDebugMcp/Backend/Launch
   source: crates/lldb-backend/src/backend.rs
   digest: The launch handshake does not depend on the order in which the adapter speaks. -/

import LldbDebugMcp.Backend.Follow

set_option autoImplicit false
set_option relaxedAutoImplicit false

namespace LldbDebugMcp.Backend.Launch

open LldbDebugMcp.Core.Types
open LldbDebugMcp.Client.Message
open LldbDebugMcp.Client.ReadLoop
open LldbDebugMcp.Library.Transition
open LldbDebugMcp.Backend
open LldbDebugMcp.Backend.Operations
open LldbDebugMcp.Backend.Script
open LldbDebugMcp.Backend.Adapter
open LldbDebugMcp.Backend.Steps
open LldbDebugMcp.Backend.Follow

variable {spec : LaunchSpec}

/-- The operations before the stop waiter is registered, if it is at all. -/
def configuration (spec : LaunchSpec) : List Op :=
  .send Requests.initializeRequest ::
  .sendAsync (Requests.launch <| Requests.launchArgsToValue <|
    Requests.LldbLaunchArgs.new spec.program spec.args spec.cwd spec.env spec.stopOnEntry) ::
  .waitInitialized ::
  (spec.sourceBreakpoints.map (fun s => .send (Requests.setBreakpoints s.1 s.2)) ++
    ((functionRequests spec.functionBreakpoints).map .send ++
      [.send Requests.setExceptionBreakpoints]))

theorem launchScript_eq (spec : LaunchSpec) :
    launchScript spec = configuration spec ++ launchEnd spec.stopOnEntry := by
  simp [launchScript, configuration]

private theorem requestsOf_sends (rs : List Request) : requestsOf (rs.map .send) = rs := by
  induction rs with
  | nil => rfl
  | cons r rs ih => exact congrArg (r :: ·) ih

/-- Everything but the last request is written before the waiter is registered. -/
theorem requestsOf_configuration (spec : LaunchSpec) :
    requestsOf (configuration spec) ++ [Requests.configurationDone] = launchRequests spec := by
  have sources : spec.sourceBreakpoints.map (fun s => Op.send (Requests.setBreakpoints s.1 s.2)) =
      (spec.sourceBreakpoints.map fun s => Requests.setBreakpoints s.1 s.2).map .send := by
    rw [List.map_map]
    rfl
  have flush : requestsOf (configuration spec) =
      [Requests.initializeRequest, Requests.launch <| Requests.launchArgsToValue <|
        Requests.LldbLaunchArgs.new spec.program spec.args spec.cwd spec.env spec.stopOnEntry] ++
      (requestsOf (spec.sourceBreakpoints.map fun s => .send (Requests.setBreakpoints s.1 s.2)) ++
        (requestsOf ((functionRequests spec.functionBreakpoints).map .send) ++
          [Requests.setExceptionBreakpoints])) := by
    simp [configuration, requestsOf]
  rw [flush, sources, requestsOf_sends, requestsOf_sends]
  simp [launchRequests]

theorem requestsOf_launch (spec : LaunchSpec) :
    requestsOf (launchScript spec) = launchRequests spec := by
  have ends : requestsOf (launchEnd spec.stopOnEntry) = [Requests.configurationDone] := by
    cases spec.stopOnEntry <;> rfl
  rw [launchScript_eq, requestsOf_append, ends, requestsOf_configuration]

private theorem mem_configuration {i : Op} (mem : i ∈ configuration spec) :
    (∃ r, i = .send r) ∨ (∃ r, i = .sendAsync r) ∨ i = .waitInitialized := by
  simp only [configuration, List.mem_cons, List.mem_append, List.mem_map, List.not_mem_nil,
    or_false] at mem
  rcases mem with rfl | rfl | rfl | ⟨_, -, rfl⟩ | ⟨_, -, rfl⟩ | rfl
  · exact .inl ⟨_, rfl⟩
  · exact .inr (.inl ⟨_, rfl⟩)
  · exact .inr (.inr rfl)
  · exact .inl ⟨_, rfl⟩
  · exact .inl ⟨_, rfl⟩
  · exact .inl ⟨_, rfl⟩

private theorem launch_mem {i : Op} (mem : i ∈ launchScript spec) :
    i ∈ configuration spec ∨ (spec.stopOnEntry = true ∧ (i = .register ∨ i = .recvStop)) ∨
      (∃ r, i = .send r) ∨ i = .recvReply := by
  rw [launchScript_eq] at mem
  refine (List.mem_append.mp mem).imp_right fun mem => ?_
  cases entry : spec.stopOnEntry <;> simp [launchEnd, entry] at mem ⊢ <;> aesop

private theorem not_mem_configuration {i : Op} (h : ∀ r, i ≠ .send r) (h' : ∀ r, i ≠ .sendAsync r)
    (h'' : i ≠ .waitInitialized) : i ∉ configuration spec := by
  intro mem
  rcases mem_configuration mem with ⟨r, eq⟩ | ⟨r, eq⟩ | eq
  · exact h r eq
  · exact h' r eq
  · exact h'' eq

/-- What the configuration does not do is done on entry only, when a launch that runs on does
not do it either. -/
private theorem entry_of_place {i : Op} {done rest : List Op} (absent : i ∉ configuration spec)
    (later : i ∉ launchEnd false)
    (place : configuration spec ++ launchEnd spec.stopOnEntry = done ++ i :: rest) :
    spec.stopOnEntry = true := by
  rw [← Bool.not_eq_false]
  intro entry
  have mem : i ∈ configuration spec ++ launchEnd spec.stopOnEntry := by
    rw [place]
    exact List.mem_append_right _ (List.mem_cons_self ..)
  rw [entry] at mem
  exact (List.mem_append.mp mem).elim absent later

/-- Where the script registers the waiter: at the end of the configuration, on entry only. -/
theorem launch_register {done rest : List Op}
    (place : launchScript spec = done ++ .register :: rest) :
    spec.stopOnEntry = true ∧ done = configuration spec := by
  have absent : .register ∉ configuration spec :=
    not_mem_configuration (by simp) (by simp) (by simp)
  rw [launchScript_eq] at place
  have entry := entry_of_place absent (by simp [launchEnd]) place
  rw [entry] at place
  exact ⟨entry, ((List.append_cons_inj_of_notMem absent (by simp)).mp place).1.symm⟩

theorem launch_wellFormed (spec : LaunchSpec) : WellFormed (launchScript spec) where
  plain i mem := by
    rcases launch_mem mem with mem | ⟨-, rfl | rfl⟩ | ⟨r, rfl⟩ | rfl
    · rcases mem_configuration mem with ⟨r, rfl⟩ | ⟨r, rfl⟩ | rfl <;> simp
    · simp
    · simp
    · simp
    · simp
  reply _ _ place := reply_after_opening place
  stop done rest place := by
    have absent : .recvStop ∉ configuration spec :=
      not_mem_configuration (by simp) (by simp) (by simp)
    rw [launchScript_eq] at place
    have entry := entry_of_place absent (by simp [launchEnd]) place
    have split : configuration spec ++ launchEnd spec.stopOnEntry = (configuration spec ++
        [.register, .send Requests.configurationDone, .recvReply]) ++ .recvStop :: [] := by
      rw [entry]
      simp [launchEnd]
    rw [split] at place
    obtain ⟨rfl, -⟩ := (List.append_cons_inj_of_notMem (by simp [absent]) (by simp)).mp place
    simp
  once done rest place := by
    obtain ⟨-, rfl⟩ := launch_register place
    exact not_mem_configuration (by simp) (by simp) (by simp)
  init _ _ place := init_after_opening rfl place

theorem launch_executes (spec : LaunchSpec) :
    Executes (launchScript spec) (fun heard => .launch (launchConclusion heard)) none
      (Call.launch spec).program :=
  (runLaunch_executes spec).reply Reply.launch

/-- What has come of a launch: what is on the wire, whether it can go on, and its reply. -/
structure Launched (spec : LaunchSpec) (pid : Option Int) (as : List Action) (c : Connection) :
    Prop where
  /-- The frames are the requests, in order and without a gap. -/
  wire : c.link.wire <+: stamp (launchRequests spec)
  /-- Nothing after `initialize` and `launch` is written before the initialized event. -/
  configured : 2 < c.link.wire.length → c.link.shared.fired = true
  bounded : as.countP isPoll ≤ 3 * (launchScript spec).length
  /-- The call is done or can be polled, unless the adapter owes it a message. -/
  goes_on : (∃ reply, c.finish 0 = some (reply, c.setCall 0 none)) ∨
    (∃ choice c', Cooperative c (.act (.poll 0 choice)) ∧
      c.step (.act (.poll 0 choice)) = some c') ∨
    Waits pid (Call.launch spec).program (launchScript spec) as c
  written : ∀ reply c', c.finish 0 = some (reply, c') → c.link.wire = stamp (launchRequests spec)
  running : ∀ reply c', c.finish 0 = some (reply, c') → spec.stopOnEntry = false →
    reply = .launch (.ok .running)
  /-- The first outcome since the registration, which precedes `configurationDone`. -/
  entered : ∀ reply c', c.finish 0 = some (reply, c') → spec.stopOnEntry = true →
    ∃ before o log, launchRequests spec = before ++ [Requests.configurationDone] ∧
      Since pid (Call.launch spec).program before as (o :: log) ∧
      reply = .launch (.ok (entryOutcome o))

/-- A launch comes to the same against every adapter that answers with success and sends the
initialized event, in whatever order. -/
theorem launch_any_order (spec : LaunchSpec) (pid : Option Int) (as : List Action) (c : Connection)
    (run : Run Connection.step Cooperative (begun pid (Call.launch spec).program) as c) :
    Launched spec pid as c := by
  have follows := follows (launch_wellFormed spec) (launch_executes spec) run
  have recvStop : .recvStop ∈ launchScript spec ↔ spec.stopOnEntry = true := by
    have absent : .recvStop ∉ configuration spec :=
      not_mem_configuration (by simp) (by simp) (by simp)
    rw [launchScript_eq]
    cases spec.stopOnEntry <;> simp [launchEnd, absent]
  have requests := requestsOf_launch spec
  exact {
    wire := requests ▸ follows.wire
    configured := fun written =>
      follows.waits [.send Requests.initializeRequest, .sendAsync _] _ rfl
      written
    bounded := follows.bounded
    goes_on := follows.goes_on
    written := requests ▸ follows.written
    running := fun reply c' finish entry => follows.silent reply c' finish fun mem => by
      rw [recvStop.mp mem] at entry
      cases entry
    entered := fun reply c' finish entry => by
      obtain ⟨done, rest, o, log, place, since, eq⟩ :=
        follows.told reply c' finish (recvStop.mpr entry)
      obtain ⟨-, rfl⟩ := launch_register place
      exact ⟨_, o, log, (requestsOf_configuration spec).symm, since, eq⟩ }

private def entrySpec : LaunchSpec := ⟨"a.out", [], none, [], true, [("a.c", [⟨3, ""⟩])], []⟩

/-- The initialized event comes before the response to `initialize`, the stop before the response
to `configurationDone`, and the response to `launch` last. -/
private def deferred : List Action :=
  [go, write, .act (.receive (.event .initialized)), answer 1 "initialize", go] ++
  [go, write, go] ++ exchange 3 "setBreakpoints" ++ exchange 4 "setExceptionBreakpoints" ++ [go] ++
  [go, write, .act (.receive (.event (.stopped ⟨"breakpoint", "", 1, "", true, [1]⟩))),
    answer 5 "configurationDone", go] ++ [answer 2 "launch", go, go]

private theorem deferred_stops :
    ((exec Connection.step Cooperative (begun none (Call.launch entrySpec).program) deferred).bind
      (·.finish 0)).map (fun p => match p.1 with
        | .launch (.ok (.stopped info)) => info.hitBreakpointIds
        | _ => []) = some [1] := by
  decide +kernel

theorem launch_any_order_deferred :
    ∃ c, Run Connection.step Cooperative (begun none (Call.launch entrySpec).program) deferred c ∧
      Launched entrySpec none deferred c ∧ c.link.wire = stamp (launchRequests entrySpec) ∧
      ∃ before o log, Since none (Call.launch entrySpec).program before deferred (o :: log) ∧
        (c.finish 0).map (·.1) = some (.launch (.ok (entryOutcome o))) := by
  obtain ⟨p, finished, -⟩ := Option.map_eq_some_iff.mp deferred_stops
  obtain ⟨c, executed, finish⟩ := Option.bind_eq_some_iff.mp finished
  have run := run_of_exec executed
  have launched := launch_any_order entrySpec none deferred c run
  obtain ⟨before, o, log, -, since, eq⟩ := launched.entered p.1 p.2 finish rfl
  exact ⟨c, run, launched, launched.written p.1 p.2 finish, before, o, log, since, by
    rw [finish, Option.map_some, eq]⟩

end LldbDebugMcp.Backend.Launch
