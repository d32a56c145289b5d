/- module: LldbDebugMcp/Backend/Script
   source: crates/lldb-backend/src/backend.rs
   digest: The operations of a handshake in order, as long as the adapter answers with success. -/

import LldbDebugMcp.Backend.Operations

set_option autoImplicit false
set_option relaxedAutoImplicit false

namespace LldbDebugMcp.Backend.Script

open LldbDebugMcp.Core.Types
open LldbDebugMcp.Client.Message
open LldbDebugMcp.Client.State (PendingResult)
open LldbDebugMcp.Library.Effect
open LldbDebugMcp.Backend
open LldbDebugMcp.Backend.Operations

/-- A success response to the request. -/
def succeeds (request : Request) : DapMessage → Bool
  | .response response => response.success && response.command == request.command
  | .event _ | .other _ => false

/-- What is left of a script, and what the wait for a stop has resulted in; none once an
operation has not gone as the script wants. -/
abbrev Progress := Option (List Op × Option (Option StopOutcome))

def scriptOk : Progress → Op → Prop
  | none, _ => True
  | some (todo, _), i => todo.head? = some i

def scriptAfter : Progress → (i : Op) → i.Result → Progress
  | some (todo, heard), .send request, .ok message =>
    if succeeds request message then some (todo.tail, heard) else none
  | some (todo, heard), .sendAsync _, .ok () => some (todo.tail, heard)
  | some (todo, heard), .waitInitialized, _ => some (todo.tail, heard)
  | some (todo, heard), .register, _ => some (todo.tail, heard)
  | some (todo, heard), .recvReply, some (.ok (.response response)) =>
    if response.success then some (todo.tail, heard) else none
  | some (todo, _), .recvStop, r => some (todo.tail, some r)
  | _, _, _ => none

/-- The reply is the one that follows from what was heard. -/
def scriptDone {α : Type} (conclude : Option (Option StopOutcome) → α) : Progress → α → Prop
  | none, _ => True
  | some (todo, heard), reply => todo = [] ∧ reply = conclude heard

/-- The program performs the script, and concludes from what the wait for a stop results in. -/
def Executes {α : Type} (script : List Op) (conclude : Option (Option StopOutcome) → α)
    (heard : Option (Option StopOutcome)) (program : Dap α) : Prop :=
  Program.Safe scriptOk scriptAfter (scriptDone conclude) (some (script, heard)) program

section

variable {α β : Type} {conclude : Option (Option StopOutcome) → α}
  {todo rest later : List Op} {heard : Option (Option StopOutcome)}

/-- Nothing is asked of a program any more once the script was left. -/
theorem safe_left {post : Progress → α → Prop} (free : ∀ value, post none value)
    (program : Dap α) : Program.Safe scriptOk scriptAfter post none program := by
  induction program with
  | done value => exact free value
  | op i next ih => exact ⟨trivial, fun r => ih r⟩

/-- A part of a handshake, which fails only when the script was left. -/
private abbrev Does (todo rest : List Op) (Q : β → Prop) (x : Checked β) : Prop :=
  Program.Yields scriptOk scriptAfter (fun g _ => g = none)
    (fun g value => g = none ∨ g = some (rest, none) ∧ Q value) (some (todo, none)) x

private theorem does_then {γ : Type} {Q : β → Prop} {R : γ → Prop} {x : Checked β}
    {f : β → Checked γ} (first : Does todo rest Q x)
    (second : ∀ value, Q value → Does rest later R (f value)) : Does todo later R (x >>= f) := by
  refine first.bind fun g value h => ?_
  rcases h with rfl | ⟨rfl, holds⟩
  · refine safe_left (fun r => ?_) _
    cases r with
    | ok value => exact .inl rfl
    | error e => rfl
  · exact second value holds

private theorem does_pure {Q : β → Prop} {value : β} (holds : Q value) :
    Does todo todo Q (pure value) := .inr ⟨rfl, holds⟩

private theorem does_sendOr (failure : String) (request : Request) :
    Does (.send request :: rest) rest (succeeds request · = true) (sendOr failure request) := by
  refine ⟨rfl, fun r => ?_⟩
  cases r with
  | error e => rfl
  | ok message =>
    change (if succeeds request message = true then some (rest, none) else none) = none ∨
      (if succeeds request message = true then some (rest, none) else none) = some (rest, none) ∧
        succeeds request message = true
    by_cases good : succeeds request message = true
    · exact .inr ⟨if_pos good, good⟩
    · exact .inl (if_neg good)

private theorem response_of_succeeds {request : Request} {message : DapMessage}
    (good : succeeds request message = true) : ∃ response, message = .response response ∧
      response.success = true ∧ response.command = request.command := by
  cases message with
  | response response => exact ⟨response, rfl, by simpa [succeeds] using good⟩
  | event | other => cases good

/-- A successful response passes the check. -/
private theorem does_checkResponse (op failedOp : String) {message : DapMessage}
    {response : Response} (eq : message = .response response) (success : response.success = true) :
    Does todo todo (fun _ => True) (checkResponse op failedOp message) := by
  subst eq
  change Does todo todo _ (if response.success = true then _ else _)
  rw [if_pos success]
  exact does_pure trivial

private theorem does_checked {op failedOp failure : String} {request : Request} :
    Does (.send request :: rest) rest (fun _ => True) (do
      let message ← sendOr failure request
      let _ ← checkResponse op failedOp message) :=
  does_then (does_sendOr failure request) fun message good => by
    obtain ⟨response, eq, success, -⟩ := response_of_succeeds good
    exact does_then (does_checkResponse op failedOp eq success) fun _ _ => does_pure trivial

private theorem does_breakpoints (file : String) (bps : List SourceBp) :
    Does (.send (Requests.setBreakpoints file bps) :: rest) rest (fun _ => True)
      (sendCheckedBreakpointsForFile file bps) := by
  refine does_then (does_sendOr _ _) fun message good => ?_
  obtain ⟨response, rfl, success, command⟩ := response_of_succeeds good
  change Does rest rest _ (if response.command = "setBreakpoints" then _ else _)
  rw [if_pos (show response.command = "setBreakpoints" from command), if_pos success]
  exact does_pure trivial

private theorem does_flushSource (sources : List (String × List SourceBp)) :
    Does (sources.map (fun s => .send (Requests.setBreakpoints s.1 s.2)) ++ rest) rest
      (fun _ => True) (flushSourceBreakpoints sources) := by
  induction sources with
  | nil => exact does_pure trivial
  | cons source sources ih => exact does_then (does_breakpoints source.1 source.2) fun _ _ => ih

/-- The request for the function breakpoints, if there are any. -/
def functionRequests (bps : List FunctionBp) : List Request :=
  if bps.isEmpty then [] else [Requests.setFunctionBreakpoints bps]

private theorem does_flushFunction (bps : List FunctionBp) :
    Does ((functionRequests bps).map .send ++ rest) rest (fun _ => True)
      (flushFunctionBreakpoints bps) := by
  unfold flushFunctionBreakpoints functionRequests
  split
  · exact does_pure trivial
  · exact does_checked

private theorem does_sendAsync (failure : String) (request : Request) :
    Does (.sendAsync request :: rest) rest (fun _ => True) (sendAsyncOr failure request) := by
  refine ⟨rfl, fun r => ?_⟩
  cases r with
  | error e => rfl
  | ok value => exact .inr ⟨rfl, trivial⟩

private theorem does_wait :
    Does (.waitInitialized :: rest) rest (fun _ => True) (liftM (perform .waitInitialized)) :=
  Program.yields_lift ⟨rfl, fun _ => .inr ⟨rfl, trivial⟩⟩

private theorem does_register :
    Does (.register :: rest) rest (fun _ => True) (liftM (perform .register)) :=
  Program.yields_lift ⟨rfl, fun _ => .inr ⟨rfl, trivial⟩⟩

private theorem does_recvReply (failure : String) :
    Does (.recvReply :: rest) rest
      (fun message => ∃ response, message = .response response ∧ response.success = true)
      (recvReplyOr failure) := by
  refine ⟨rfl, fun r => ?_⟩
  rcases r with _ | (e | message)
  · rfl
  · rfl
  · cases message with
    | response response =>
      change (if response.success = true then some (rest, none) else none) = none ∨
        (if response.success = true then some (rest, none) else none) = some (rest, none) ∧ _
      by_cases success : response.success = true
      · exact .inr ⟨if_pos success, response, rfl, success⟩
      · exact .inl (if_neg success)
    | event | other => exact .inl rfl

/-- The rest of a handshake, which concludes from what was heard. -/
private abbrev Concludes (todo : List Op)
    (conclude : Option (Option StopOutcome) → Except BackendError β) (x : Checked β) : Prop :=
  Executes todo conclude none x.run

private theorem concludes_then {γ : Type} {Q : β → Prop}
    {conclude : Option (Option StopOutcome) → Except BackendError γ} {x : Checked β}
    {f : β → Checked γ} (first : Does todo rest Q x)
    (second : ∀ value, Q value → Concludes rest conclude (f value)) :
    Concludes todo conclude (x >>= f) := by
  refine Program.Safe.bind first fun g r h => ?_
  cases r with
  | ok value =>
    rcases h with rfl | ⟨rfl, holds⟩
    · exact safe_left (fun _ => trivial) _
    · exact second value holds
  | error e =>
    obtain rfl : g = none := h
    exact trivial

/-- The end of the configuration, and the deferred response. -/
private theorem concludes_configured {op failedOp failure : String}
    {conclude : Option (Option StopOutcome) → Except BackendError β} {x : Checked β}
    (last : Concludes later conclude x) :
    Concludes (.send Requests.configurationDone :: .recvReply :: later) conclude (do
      let _ ← sendOr "configurationDone failed" Requests.configurationDone
      let message ← recvReplyOr failure
      let _ ← checkResponse op failedOp message
      x) := by
  refine concludes_then (does_sendOr _ _) fun _ _ => concludes_then (does_recvReply _) ?_
  rintro message ⟨response, eq, success⟩
  exact concludes_then (does_checkResponse _ _ eq success) fun _ _ => last

/-- The call of a handshake, which wraps the result. -/
theorem Executes.reply {x : Dap α} (executes : Executes todo conclude heard x) (wrap : α → β) :
    Executes todo (fun heard => wrap (conclude heard)) heard (x.bind fun r => .done (wrap r)) := by
  refine Program.Safe.bind executes fun g r h => ?_
  cases g with
  | none => exact trivial
  | some progress => exact ⟨h.1, congrArg wrap h.2⟩

end

/-! The handshakes. -/

/-- The requests that launch writes, in order. -/
def launchRequests (spec : LaunchSpec) : List Request :=
  [Requests.initializeRequest, Requests.launch <| Requests.launchArgsToValue <|
    Requests.LldbLaunchArgs.new spec.program spec.args spec.cwd spec.env spec.stopOnEntry] ++
  spec.sourceBreakpoints.map (fun s => Requests.setBreakpoints s.1 s.2) ++
  functionRequests spec.functionBreakpoints ++
  [Requests.setExceptionBreakpoints, Requests.configurationDone]

/-- What follows the configuration of a launch. -/
def launchEnd (entry : Bool) : List Op :=
  (if entry then [.register] else []) ++ [.send Requests.configurationDone, .recvReply] ++
    if entry then [.recvStop] else []

def launchScript (spec : LaunchSpec) : List Op :=
  .send Requests.initializeRequest ::
  .sendAsync (Requests.launch <| Requests.launchArgsToValue <|
    Requests.LldbLaunchArgs.new spec.program spec.args spec.cwd spec.env spec.stopOnEntry) ::
  .waitInitialized ::
  (spec.sourceBreakpoints.map (fun s => .send (Requests.setBreakpoints s.1 s.2)) ++
    ((functionRequests spec.functionBreakpoints).map .send ++
      (.send Requests.setExceptionBreakpoints :: launchEnd spec.stopOnEntry)))

/-- What a stop-on-entry wait makes of an outcome. -/
def entryOutcome : StopOutcome → LaunchOutcome
  | .stopped info => .stopped info
  | .exited code => .exited code
  | .terminated => .exited none

def launchConclusion : Option (Option StopOutcome) → Except BackendError LaunchOutcome
  | some (some outcome) => .ok (entryOutcome outcome)
  | some none => .ok (.exited none)
  | none => .ok .running

theorem runLaunch_executes (spec : LaunchSpec) :
    Executes (launchScript spec) launchConclusion none (runLaunch spec).run := by
  unfold runLaunch launchScript
  refine concludes_then does_checked fun _ _ => concludes_then (does_sendAsync _ _) fun _ _ =>
    concludes_then does_wait fun _ _ => concludes_then (does_flushSource _) fun _ _ =>
    concludes_then (does_flushFunction _) fun _ _ => concludes_then (does_sendOr _ _) fun _ _ => ?_
  by_cases entry : spec.stopOnEntry = true
  · simp only [launchEnd, entry, if_true]
    refine concludes_then does_register fun _ _ => concludes_configured ?_
    refine ⟨rfl, fun r => ?_⟩
    rcases r with _ | (info | code | _) <;> exact ⟨rfl, rfl⟩
  · simp only [launchEnd, entry, if_false, Bool.false_eq_true]
    exact concludes_configured ⟨rfl, rfl⟩

/-- The requests that attach writes, in order. -/
def attachRequests (spec : AttachSpec) : List Request :=
  [Requests.initializeRequest, Requests.attach <| Requests.attachArgsToValue <|
    Requests.LldbAttachArgs.new spec.pid spec.waitFor,
    Requests.setExceptionBreakpoints, Requests.configurationDone]

def attachScript (spec : AttachSpec) : List Op :=
  [.send Requests.initializeRequest, .sendAsync (Requests.attach <| Requests.attachArgsToValue <|
    Requests.LldbAttachArgs.new spec.pid spec.waitFor), .waitInitialized,
    .send Requests.setExceptionBreakpoints, .send Requests.configurationDone, .recvReply, .register,
    .recvStop]

def attachedOutcome : StopOutcome → AttachOutcome
  | .stopped info => .stopped info
  | .exited code => .exited code
  | .terminated => .terminated

def attachConclusion : Option (Option StopOutcome) → Except BackendError AttachOutcome
  | some (some outcome) => .ok (attachedOutcome outcome)
  | some none | none => .ok .terminated

theorem runAttach_executes (spec : AttachSpec) :
    Executes (attachScript spec) attachConclusion none (runAttach spec).run := by
  unfold runAttach attachScript
  refine concludes_then does_checked fun _ _ => concludes_then (does_sendAsync _ _) fun _ _ =>
    concludes_then does_wait fun _ _ => concludes_then (does_sendOr _ _) fun _ _ =>
    concludes_configured <| concludes_then does_register fun _ _ => ?_
  refine ⟨rfl, fun r => ?_⟩
  rcases r with _ | (info | code | _) <;> exact ⟨rfl, rfl⟩

end LldbDebugMcp.Backend.Script
