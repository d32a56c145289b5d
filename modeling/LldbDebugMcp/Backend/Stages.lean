/- module: LldbDebugMcp/Backend/Stages
   source: crates/lldb-backend/src/backend.rs
   digest: What comes after what in the calls of the backend. -/

import LldbDebugMcp.Backend.Steps
import LldbDebugMcp.Backend.Parts

set_option autoImplicit false
set_option relaxedAutoImplicit false

namespace LldbDebugMcp.Backend.Stages

open LldbDebugMcp.Core.Types
open LldbDebugMcp.Client.Message
open LldbDebugMcp.Library.Effect
open LldbDebugMcp.Backend
open LldbDebugMcp.Backend.Operations
open LldbDebugMcp.Backend.Parts

/-- How far a call is: from its wait for the initialized event, and from the kill of the child. -/
inductive Stage where
  | other
  /-- The wait is over, and the next request was not sent yet. -/
  | waited
  /-- The request after the wait could not be sent. -/
  | failing
  /-- The child was taken, and was not killed yet. -/
  | took
  /-- The child was not there to be taken. -/
  | missed
  | killed
  deriving DecidableEq

def stageAfter : Stage → (i : Op) → i.Result → Stage
  | .other, .waitInitialized, _ => .waited
  | .waited, .send _, .ok _ => .other
  | .waited, .send _, .error _ => .failing
  | .other, .takeChild, true => .took
  | .other, .takeChild, false => .missed
  | .took, .startKill, _ => .killed
  | g, _, _ => g

/-- The wait is followed by a request, and nothing follows it when it cannot be sent. A child
that was taken is killed at once, and no other is. -/
def stageOk : Stage → Op → Prop
  | .other, .startKill | .other, .waitChild => False
  | .other, _ => True
  | .waited, .send _ => True
  | .took, .startKill => True
  | .killed, .waitChild => True
  | _, _ => False

/-- The error of a launch or attach. -/
def Failed : Reply → Prop
  | .launch (.error _) | .attach (.error _) => True
  | _ => False

/-- A disconnect is done only once the child was taken. -/
def stageDone : Stage → Reply → Prop
  | .other, reply => reply ≠ .disconnect
  | .waited, _ | .took, _ => False
  | .failing, reply => Failed reply
  | .missed, _ | .killed, _ => True

/-- A part of a handshake, which does not fail right after the wait. -/
private abbrev Part {α : Type} (g : Stage) (post : Stage → α → Prop) (x : Checked α) : Prop :=
  Program.Yields stageOk stageAfter (fun g _ => g = .other ∨ g = .failing) post g x

/-- Where a request can be sent. -/
private abbrev Going (g : Stage) : Prop := g = .other ∨ g = .waited

private theorem rests_other : Rests stageOk stageAfter .other := fun i exchanges => by
  cases i <;> first | exact exchanges.elim | exact ⟨trivial, fun _ => rfl⟩

private theorem asks_other : Asks stageOk stageAfter .other := rests_other.asks

/-- A part that has nothing to do with the wait. -/
private theorem part_stays {α : Type} {x : Checked α} (stays : Stays stageOk stageAfter .other x) :
    Part .other (fun g _ => g = .other) x := stays.raises fun _ => .inl rfl

/-- A part that ends away from the wait, and the rest of the handshake. -/
private theorem part_then {α β : Type} {g : Stage} {post : Stage → β → Prop} {x : Checked α}
    {f : α → Checked β} (first : Part g (fun g _ => g = .other) x)
    (rest : ∀ value, Part .other post (f value)) : Part g post (x >>= f) := by
  refine first.bind fun g value h => ?_
  subst h
  exact rest value

/-- A request, which may be the first one after the wait. -/
private theorem part_sendOr {g : Stage} (going : Going g) (failure : String)
    (request : Request) : Part g (fun g _ => g = .other) (sendOr failure request) := by
  rcases going with rfl | rfl
  · exact part_stays (stays_sendOr asks_other failure request)
  · refine ⟨trivial, fun r => ?_⟩
    cases r with
    | ok message => rfl
    | error e => exact .inr rfl

private theorem part_breakpoints {g : Stage} (going : Going g) (file : String)
    (bps : List SourceBp) :
    Part g (fun g _ => g = .other) (sendCheckedBreakpointsForFile file bps) :=
  yields_breakpoints asks_other (fun _ => .inl rfl) rfl (yields_sent (part_sendOr going _ _))

/-- The flush sends nothing when there are no breakpoints. -/
private theorem part_flushSource {g : Stage} (going : Going g)
    (sources : List (String × List SourceBp)) :
    Part g (fun g _ => Going g) (flushSourceBreakpoints sources) := by
  induction sources generalizing g with
  | nil => exact going
  | cons source rest ih =>
    exact part_then (part_breakpoints going source.1 source.2) fun _ => ih (.inl rfl)

private theorem part_flushFunction {g : Stage} (going : Going g) (bps : List FunctionBp) :
    Part g (fun g _ => Going g) (flushFunctionBreakpoints bps) :=
  yields_functions asks_other (fun _ => .inl rfl) going (.inl rfl)
    (yields_sent (part_sendOr going _ _))

private theorem part_wait :
    Part .other (fun g _ => g = .waited) (liftM (perform .waitInitialized)) :=
  Program.yields_lift ⟨trivial, fun _ => rfl⟩

private theorem stays_register :
    Stays stageOk stageAfter .other (liftM (perform .register)) :=
  Program.yields_lift ⟨trivial, fun _ => rfl⟩

private theorem hears_other : Still stageOk stageAfter .other .recvStop :=
  ⟨trivial, fun _ => rfl⟩

private theorem part_runLaunch (spec : LaunchSpec) :
    Part .other (fun g _ => g = .other) (runLaunch spec) := by
  unfold runLaunch
  refine part_then (part_stays (stays_exchange asks_other)) fun _ =>
    part_then (part_stays (stays_sendAsync rests_other _ _)) fun _ =>
    part_wait.bind fun g _ waited => (part_flushSource (.inr waited) _).bind
    fun g _ going => (part_flushFunction going _).bind fun g _ going =>
    part_then (part_sendOr going _ _) fun _ => ?_
  have rest : Part .other (fun g _ => g = .other) (do
      let _ ← sendOr "configurationDone failed" Requests.configurationDone
      let message ← recvReplyOr "launch request failed"
      let _ ← checkResponse "launch" "launch" message
      awaitEntry spec.stopOnEntry) :=
    yields_configured asks_other (fun _ => .inl rfl) (part_stays (stays_awaitEntry hears_other _))
  by_cases entry : spec.stopOnEntry = true
  · simp only [if_pos entry]
    exact part_then (part_stays stays_register) fun _ => rest
  · simp only [if_neg entry]
    exact rest

private theorem part_runAttach (spec : AttachSpec) :
    Part .other (fun g _ => g = .other) (runAttach spec) := by
  unfold runAttach
  refine part_then (part_stays (stays_exchange asks_other)) fun _ =>
    part_then (part_stays (stays_sendAsync rests_other _ _)) fun _ =>
    part_wait.bind fun g _ waited => part_then (part_sendOr (.inr waited) _ _) fun _ => ?_
  exact yields_configured asks_other (fun _ => .inl rfl) <|
    part_then (part_stays stays_register) fun _ => part_stays (stays_awaitAttached hears_other)

private theorem stays_resume (request : Request) :
    Stays stageOk stageAfter .other (resumeAndWait request) :=
  stays_resumeAndWait asks_other ⟨trivial, fun _ => rfl⟩ hears_other request

/-- The answer of a call that has nothing to do with the wait. -/
private theorem follows_stays {α : Type} {x : Checked α}
    (stays : Stays stageOk stageAfter .other x)
    (reply : Except BackendError α → Reply) (answer : ∀ r, reply r ≠ .disconnect) :
    Program.Safe stageOk stageAfter stageDone .other (x.run.bind fun r => .done (reply r)) := by
  refine Program.Safe.bind stays fun g r h => ?_
  cases r <;>
    · change g = .other at h
      subst h
      exact answer _

/-- The answer of a launch or attach. -/
private theorem follows_part {α : Type} {x : Checked α}
    (part : Part .other (fun g _ => g = .other) x) {reply : Except BackendError α → Reply}
    (answer : ∀ r, reply r ≠ .disconnect) (failed : ∀ e, Failed (reply (.error e))) :
    Program.Safe stageOk stageAfter stageDone .other (x.run.bind fun r => .done (reply r)) := by
  refine Program.Safe.bind part fun g r h => ?_
  cases r with
  | ok value =>
    change g = .other at h
    subst h
    exact answer _
  | error e =>
    rcases h with rfl | rfl
    · exact answer _
    · exact failed e

/-- What every call follows from its beginning. -/
theorem call_follows (call : Call) :
    Program.Safe stageOk stageAfter stageDone .other call.program := by
  cases call with
  | launch spec => exact follows_part (part_runLaunch spec) (by simp) fun _ => trivial
  | attach spec => exact follows_part (part_runAttach spec) (by simp) fun _ => trivial
  | cont threadId => exact follows_stays (stays_resume _) .resume (by simp)
  | step kind threadId gran =>
    exact follows_stays (stays_resume _) .resume (by simp)
  | pause => exact follows_stays (stays_pause asks_other) .pause (by simp)
  | disconnect terminate =>
    refine ⟨trivial, fun _ => ⟨trivial, fun taken => ?_⟩⟩
    cases taken with
    | true => exact ⟨trivial, fun _ => ⟨trivial, fun _ => trivial⟩⟩
    | false => trivial

end LldbDebugMcp.Backend.Stages
