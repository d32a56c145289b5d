/- module: LldbDebugMcp/Backend/AfterWait
   source: crates/lldb-backend/src/backend.rs
   digest: What a launch or attach does after its wait, while its requests are answered with
   success. -/

import LldbDebugMcp.Backend.Stages

set_option autoImplicit false
set_option relaxedAutoImplicit false

namespace LldbDebugMcp.Backend.AfterWait

open LldbDebugMcp.Core.Types
open LldbDebugMcp.Client.Message
open LldbDebugMcp.Library.Effect
open LldbDebugMcp.Backend
open LldbDebugMcp.Backend.Operations
open LldbDebugMcp.Backend.Parts
open LldbDebugMcp.Backend.Stages (Failed)

/-- How a handshake goes on from its wait. -/
inductive Course where
  | before
  /-- The wait is over, and every request since was answered with success. -/
  | asking
  /-- The response to the launch or attach request was read, with `success=false`. -/
  | failing
  | other
  deriving DecidableEq

def courseAfter : Course → (i : Op) → i.Result → Course
  | .before, .waitInitialized, _ => .asking
  | .asking, .send request, .ok message =>
    if Accepted request.command message then .asking else .other
  | .asking, .send _, .error _ => .other
  | .asking, .recvReply, some (.ok (.response response)) =>
    if response.success then .other else .failing
  | .asking, .recvReply, _ => .other
  | g, _, _ => g

/-- There is one wait. Between it and the response to the launch or attach request come requests
and the registration of the stop waiter, and the text of an error is all that comes after a
response with `success=false`. -/
def courseOk : Course → Op → Prop
  | .before, _ => True
  | .asking, .send _ | .asking, .register | .asking, .recvReply => True
  | .failing, .stderr => True
  | .other, .waitInitialized => False
  | .other, _ => True
  | _, _ => False

/-- A handshake whose requests were accepted is not done before it has read that response. -/
def courseDone : Course → Reply → Prop
  | .asking, _ => False
  | .failing, reply => Failed reply
  | .before, _ | .other, _ => True

/-- A part of a handshake, which raises no error while its requests are accepted. -/
private abbrev Part {α : Type} (g : Course) (post : Course → α → Prop) (x : Checked α) : Prop :=
  Program.Yields courseOk courseAfter (fun g _ => g ≠ .asking) post g x

/-- Where requests are sent after the wait. -/
private abbrev Going (g : Course) : Prop := g = .asking ∨ g = .other

private theorem rests_before : Rests courseOk courseAfter .before := fun i exchanges => by
  cases i <;> first | exact exchanges.elim | exact ⟨trivial, fun _ => rfl⟩

private theorem rests_other : Rests courseOk courseAfter .other := fun i exchanges => by
  cases i <;> first | exact exchanges.elim | exact ⟨trivial, fun _ => rfl⟩

/-- A request, after which the handshake goes on when it was accepted. -/
private theorem part_sendOr {g : Course} {post : Course → Unit → Prop} (going : Going g)
    (asking : post .asking ()) (failure : String) (request : Request) :
    Part g (SentTo .other request.command post) (sendOr failure request) := by
  rcases going with rfl | rfl
  · refine ⟨trivial, fun r => ?_⟩
    cases r with
    | error e => exact fun h => by cases h
    | ok message =>
      by_cases accepted : Accepted request.command message
      · have goes : courseAfter .asking (.send request) (.ok message) = .asking := if_pos accepted
        rw [goes]
        exact .inr ⟨accepted, asking⟩
      · have away : courseAfter .asking (.send request) (.ok message) = .other := if_neg accepted
        rw [away]
        exact .inl rfl
  · exact yields_sent ((stays_sendOr rests_other.asks _ _).raises fun _ h => by cases h)

private theorem raises_other (_ : BackendError) : Course.other ≠ .asking := fun h => by cases h

private theorem part_flushSource {g : Course} (going : Going g)
    (sources : List (String × List SourceBp)) :
    Part g (fun g _ => Going g) (flushSourceBreakpoints sources) := by
  induction sources generalizing g with
  | nil => exact going
  | cons source rest ih =>
    have first : Part g (fun g _ => Going g) (sendCheckedBreakpointsForFile source.1 source.2) :=
      yields_breakpoints rests_other.asks raises_other (.inr rfl)
        (part_sendOr going (.inl rfl) _ (Requests.setBreakpoints source.1 source.2))
    exact first.bind fun g _ going => ih going

private theorem part_flushFunction {g : Course} (going : Going g) (bps : List FunctionBp) :
    Part g (fun g _ => Going g) (flushFunctionBreakpoints bps) :=
  yields_functions rests_other.asks raises_other going (.inr rfl)
    (part_sendOr going (.inl rfl) _ (Requests.setFunctionBreakpoints bps))

/-- A request whose response is not looked at. -/
private theorem part_ask {α : Type} {g : Course} {post : Course → α → Prop} {rest : Checked α}
    (going : Going g) (failure : String) (request : Request)
    (goes : ∀ g, Going g → Part g post rest) :
    Part g post (do
      let _ ← sendOr failure request
      rest) := by
  have sent : Part g (SentTo .other request.command fun g _ => Going g)
      (sendOr failure request) := part_sendOr going (.inl rfl) failure request
  exact sent.bind fun g _ sent => goes g (sent.elim .inr fun h => h.2)

/-- What was read of the response to the launch or attach request. -/
private def Read : Course → DapMessage → Prop
  | .failing, .response response => response.success = false
  | .other, _ => True
  | _, _ => False

private theorem part_recvReply {g : Course} (going : Going g) (failure : String) :
    Part g Read (recvReplyOr failure) := by
  rcases going with rfl | rfl
  · refine ⟨trivial, fun r => ?_⟩
    rcases r with _ | (e | (response | event | envelope))
    · exact fun h => by cases h
    · exact fun h => by cases h
    · cases succeeded : response.success with
      | false =>
        have fails : courseAfter .asking .recvReply (some (.ok (.response response))) =
            .failing := by
          simp [courseAfter, succeeded]
        rw [fails]
        exact succeeded
      | true =>
        have away : courseAfter .asking .recvReply (some (.ok (.response response))) = .other := by
          simp [courseAfter, succeeded]
        rw [away]
        trivial
    · trivial
    · trivial
  · exact (stays_recvReply rests_other.asks _).ends raises_other fun _ => trivial

private theorem part_checkRead {g : Course} {op : String} {message : DapMessage}
    (read : Read g message) : Part g (fun g _ => g = .other) (checkResponse op op message) := by
  cases g with
  | other =>
    exact (stays_checkResponse (rests_other.asks .stderr trivial) _ _ _).raises raises_other
  | failing =>
    cases message with
    | response response =>
      change Part .failing _ (if response.success = true then _ else _)
      have failed : ¬ response.success = true := by
        rw [show response.success = false from read]
        exact Bool.false_ne_true
      rw [if_neg failed]
      exact yields_diagnostic ⟨trivial, fun _ => rfl⟩ (fun _ h => by cases h)
        (fun text => op ++ " failed: " ++ text) _
    | event | other => exact read.elim
  | before | asking => cases message <;> exact read.elim

private theorem part_stays {α : Type} {x : Checked α}
    (stays : Stays courseOk courseAfter .other x) :
    Part .other (fun g _ => g = .other) x :=
  stays.raises raises_other

private theorem part_then {α β : Type} {g g₁ : Course} {post : Course → β → Prop} {x : Checked α}
    {f : α → Checked β} (first : Part g (fun g _ => g = g₁) x)
    (rest : ∀ value, Part g₁ post (f value)) : Part g post (x >>= f) := by
  refine first.bind fun g value h => ?_
  subst h
  exact rest value

/-- The end of the configuration, and the response to the launch or attach request. -/
private theorem part_configured {α : Type} {g : Course} {post : Course → α → Prop}
    {op failure : String} {rest : Checked α} (going : Going g) (away : Part .other post rest) :
    Part g post (do
      let _ ← sendOr "configurationDone failed" Requests.configurationDone
      let message ← recvReplyOr failure
      let _ ← checkResponse op op message
      rest) :=
  part_ask going _ _ fun _ going => (part_recvReply going _).bind fun _ _ read =>
    part_then (part_checkRead read) fun _ => away

private theorem part_wait :
    Part .before (fun g _ => g = .asking) (liftM (perform .waitInitialized)) :=
  Program.yields_lift ⟨trivial, fun _ => rfl⟩

private theorem part_register {g : Course} (going : Going g) :
    Part g (fun g _ => Going g) (liftM (perform .register)) := by
  rcases going with rfl | rfl
  · exact Program.yields_lift ⟨trivial, fun _ => .inl rfl⟩
  · exact Program.yields_lift ⟨trivial, fun _ => .inr rfl⟩

private theorem hears_other : Still courseOk courseAfter .other .recvStop :=
  ⟨trivial, fun _ => rfl⟩

private theorem part_runLaunch (spec : LaunchSpec) :
    Part .before (fun g _ => g = .other) (runLaunch spec) := by
  unfold runLaunch
  refine part_then ((stays_exchange rests_before.asks).raises fun _ h => by cases h) fun _ =>
    part_then ((stays_sendAsync rests_before _ _).raises fun _ h => by cases h) fun _ =>
    part_then part_wait fun _ => (part_flushSource (.inl rfl) _).bind
    fun g _ going => (part_flushFunction going _).bind fun g _ going =>
    part_ask going _ _ fun g going => ?_
  have rest : ∀ g, Going g → Part g (fun g _ => g = .other) (do
      let _ ← sendOr "configurationDone failed" Requests.configurationDone
      let message ← recvReplyOr "launch request failed"
      let _ ← checkResponse "launch" "launch" message
      awaitEntry spec.stopOnEntry) := fun g going =>
    part_configured going (part_stays (stays_awaitEntry hears_other _))
  by_cases entry : spec.stopOnEntry = true
  · simp only [if_pos entry]
    exact (part_register going).bind fun g _ going => rest g going
  · simp only [if_neg entry]
    exact rest g going

private theorem part_runAttach (spec : AttachSpec) :
    Part .before (fun g _ => g = .other) (runAttach spec) := by
  unfold runAttach
  refine part_then ((stays_exchange rests_before.asks).raises fun _ h => by cases h) fun _ =>
    part_then ((stays_sendAsync rests_before _ _).raises fun _ h => by cases h) fun _ =>
    part_then part_wait fun _ => part_ask (.inl rfl) _ _ fun g going =>
    part_configured going (part_then ?_ fun _ => part_stays (stays_awaitAttached hears_other))
  exact part_stays (Program.yields_lift ⟨trivial, fun _ => rfl⟩)

private theorem stays_resume (request : Request) :
    Stays courseOk courseAfter .before (resumeAndWait request) :=
  stays_resumeAndWait rests_before.asks ⟨trivial, fun _ => rfl⟩ ⟨trivial, fun _ => rfl⟩ request

end LldbDebugMcp.Backend.AfterWait
