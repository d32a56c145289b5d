/- module: LldbDebugMcp/Backend/Operations
   source: crates/lldb-backend/src/backend.rs
   digest: The backend's asynchronous operations, as programs over the client and the child. -/

import LldbDebugMcp.Library.Effect
import LldbDebugMcp.Client.State
import LldbDebugMcp.Backend.Requests

set_option autoImplicit false
set_option relaxedAutoImplicit false

namespace LldbDebugMcp.Backend.Operations

open LldbDebugMcp.Core.Types
open LldbDebugMcp.Client.Message
open LldbDebugMcp.Client.State (PendingResult)
open LldbDebugMcp.Library.Effect
open LldbDebugMcp.Backend

/-- What a call does to its client and to the child, one await or lock at a time. The
receivers of `sendAsync` and of `register` belong to the call that made them. -/
inductive Op where
  /-- `Client::send`: register, write, await the reply, under an abort guard. -/
  | send (request : Request)
  /-- `Client::send_async`: register and write; the receiver is kept. -/
  | sendAsync (request : Request)
  | waitInitialized
  /-- `StopWaiter::register`; the receiver is kept. -/
  | register
  /-- Await the receiver of `sendAsync`; `none` when its sender is gone. -/
  | recvReply
  /-- Await the receiver of `register`; `none` when its sender is gone. -/
  | recvStop
  /-- `stderr_snapshot`. -/
  | stderr
  /-- Take the child out of its mutex, if it is still there. -/
  | takeChild
  | startKill
  | waitChild

@[reducible] def Op.Result : Op → Type
  | .send _ => PendingResult
  | .sendAsync _ => Except BackendError Unit
  | .waitInitialized | .register | .startKill | .waitChild => Unit
  | .recvReply => Option PendingResult
  | .recvStop => Option StopOutcome
  | .stderr => String
  | .takeChild => Bool

abbrev Dap := Program Op Op.Result

/-- An operation with the `?` operator. -/
abbrev Checked := ExceptT BackendError Dap

def perform (i : Op) : Dap i.Result := Program.perform i

def responseTypeLabel (response : Response) : String := "response:" ++ response.command

/-- A label for a message's type. -/
def messageTypeLabel : DapMessage → String
  | .response response => responseTypeLabel response
  | .event _ => "event"
  | .other envelope =>
    match envelope.event, envelope.command with
    | some event, _ => "event:" ++ event
    | none, some command => envelope.ty ++ ":" ++ command
    | none, none => envelope.ty

/-- The text of a `success=false` response: its message, else the captured stderr, else
a literal. -/
def diagnostic (dapMessage : String) : Dap String :=
  if dapMessage ≠ "" then return dapMessage
  else do
    let stderr ← perform .stderr
    if stderr ≠ "" then return stderr
    else return "no error message provided by lldb-dap"

/-- Send a request; a transport error becomes `<failure>: <error>`. -/
def sendOr (failure : String) (request : Request) : Checked DapMessage :=
  .mk do
    match ← perform (.send request) with
    | .ok message => return .ok message
    | .error e => return .error (.dap (failure ++ ": " ++ e.display))

/-- Check that a message is a successful response. -/
def checkResponse (op failedOp : String) : DapMessage → Checked Response
  | .response response =>
    if response.success then return response
    else do
      throw (.dap (failedOp ++ " failed: " ++ (← diagnostic response.message)))
  | other => throw (.protocol (op ++ ":" ++ messageTypeLabel other))

def sendChecked (op : String) (request : Request) : Checked Response := do
  checkResponse op op (← sendOr (op ++ " request failed") request)

/-! What `send_checked` comes to. -/

theorem eval_sendOr (failure : String) (request : Request)
    (answer : (i : Op) → i.Result) :
    (sendOr failure request).run.eval answer =
      match answer (.send request) with
      | .ok message => .ok message
      | .error e => .error (.dap (failure ++ ": " ++ e.display)) := by
  change ((perform (.send request)).bind _).eval answer = _
  rw [Program.eval_bind]
  change (match answer (.send request) with
    | .ok message => (.done (.ok message) : Dap (Except BackendError DapMessage))
    | .error e => .done (.error (.dap (failure ++ ": " ++ e.display)))).eval answer = _
  cases answer (.send request) <;> rfl

theorem eval_sendChecked (op : String) (request : Request)
    (answer : (i : Op) → i.Result) :
    (sendChecked op request).run.eval answer =
      match answer (.send request) with
      | .ok message => (checkResponse op op message).run.eval answer
      | .error e => .error (.dap (op ++ " request failed" ++ ": " ++ e.display)) := by
  change ((sendOr (op ++ " request failed") request).run.bind _).eval answer = _
  rw [Program.eval_bind, eval_sendOr]
  cases answer (.send request) <;> rfl

theorem eval_checkResponse {op : String} {response : Response}
    (failed : response.success = false) (answer : (i : Op) → i.Result) :
    (checkResponse op op (.response response)).run.eval answer =
      .error (.dap (op ++ " failed: " ++ (diagnostic response.message).eval answer)) := by
  simp only [checkResponse, failed, Bool.false_eq_true, if_false]
  change (((diagnostic response.message).bind _).bind _).eval answer = _
  rw [Program.eval_bind, Program.eval_bind]
  rfl

/-- The `initialize` exchange that launch and attach share. -/
def initializeExchange : Checked Unit := do
  let message ← sendOr "initialize request failed" Requests.initializeRequest
  let _ ← checkResponse "initialize" "initialize" message

/-- One file's `setBreakpoints` during the launch flush. -/
def sendCheckedBreakpointsForFile (file : String) (bps : List SourceBp) : Checked Unit := do
  match ← sendOr ("setBreakpoints failed for " ++ file) (Requests.setBreakpoints file bps) with
  | .response response =>
    if response.command = "setBreakpoints" then
      if response.success then return ()
      else
        throw (.dap ("setBreakpoints failed for " ++ file ++ ": " ++
          (← diagnostic response.message)))
    else throw (.protocol (responseTypeLabel response))
  | other => throw (.protocol (messageTypeLabel other))

/-- Write a request whose response is awaited later. -/
def sendAsyncOr (failure : String) (request : Request) : Checked Unit :=
  .mk do
    match ← perform (.sendAsync request) with
    | .ok () => return .ok ()
    | .error e => return .error (.dap (failure ++ ": " ++ e.display))

/-- Await the deferred response of the request that `sendAsyncOr` wrote. -/
def recvReplyOr (failure : String) : Checked DapMessage :=
  .mk do
    match ← perform .recvReply with
    | some (.ok message) => return .ok message
    | some (.error e) => return .error (.dap (failure ++ ": " ++ e.display))
    | none => return .error .closed

/-- Breakpoints of every file in turn. -/
def flushSourceBreakpoints : List (String × List SourceBp) → Checked Unit
  | [] => return ()
  | (file, bps) :: rest => do
    sendCheckedBreakpointsForFile file bps
    flushSourceBreakpoints rest

def flushFunctionBreakpoints (bps : List FunctionBp) : Checked Unit :=
  if bps.isEmpty then return ()
  else do
    let message ← sendOr "setFunctionBreakpoints failed" (Requests.setFunctionBreakpoints bps)
    let _ ← checkResponse "setFunctionBreakpoints" "setFunctionBreakpoints" message

/-- The stop-on-entry wait of launch. -/
def awaitEntry (registered : Bool) : Checked LaunchOutcome :=
  if registered then
    .mk do
      match ← perform .recvStop with
      | some (.stopped info) => return .ok (.stopped info)
      | some (.exited code) => return .ok (.exited code)
      | some .terminated => return .ok (.exited none)
      | none => return .ok (.exited none)
  else return .running

/-- The launch handshake. The stop waiter is registered before `configurationDone`. -/
def runLaunch (spec : LaunchSpec) : Checked LaunchOutcome := do
  initializeExchange
  sendAsyncOr "launch request failed" <| Requests.launch <| Requests.launchArgsToValue <|
    Requests.LldbLaunchArgs.new spec.program spec.args spec.cwd spec.env spec.stopOnEntry
  perform .waitInitialized
  flushSourceBreakpoints spec.sourceBreakpoints
  flushFunctionBreakpoints spec.functionBreakpoints
  let _ ← sendOr "setExceptionBreakpoints failed" Requests.setExceptionBreakpoints
  if spec.stopOnEntry then perform .register
  let _ ← sendOr "configurationDone failed" Requests.configurationDone
  let message ← recvReplyOr "launch request failed"
  let _ ← checkResponse "launch" "launch" message
  awaitEntry spec.stopOnEntry

/-- The first stop after an attach. -/
def awaitAttached : Checked AttachOutcome :=
  .mk do
    match ← perform .recvStop with
    | some (.stopped info) => return .ok (.stopped info)
    | some (.exited code) => return .ok (.exited code)
    | some .terminated => return .ok .terminated
    | none => return .ok .terminated

/-- The attach handshake. The stop waiter is registered after the attach response. -/
def runAttach (spec : AttachSpec) : Checked AttachOutcome := do
  initializeExchange
  sendAsyncOr "attach request failed" <| Requests.attach <| Requests.attachArgsToValue <|
    Requests.LldbAttachArgs.new spec.pid spec.waitFor
  perform .waitInitialized
  let _ ← sendOr "setExceptionBreakpoints failed" Requests.setExceptionBreakpoints
  let _ ← sendOr "configurationDone failed" Requests.configurationDone
  let message ← recvReplyOr "attach request failed"
  let _ ← checkResponse "attach" "attach" message
  perform .register
  awaitAttached

/-- Register the stop waiter, send a resume request, and await the next outcome. -/
def resumeAndWait (request : Request) : Checked StopOutcome :=
  .mk do
    perform .register
    match ← perform (.send request) with
    | .error e => return .error (.send e.display)
    | .ok _ =>
      match ← perform .recvStop with
      | some outcome => return .ok outcome
      | none => return .ok .terminated

def stepCommand : StepKind → String
  | .over => "next"
  | .into => "stepIn"
  | .out => "stepOut"

def granularityStr : Granularity → String
  | .line => "line"
  | .instruction => "instruction"

def cont (threadId : Int) : Checked StopOutcome := resumeAndWait (Requests.cont threadId)

/-- A step; `step_out` never carries a granularity. -/
def step (kind : StepKind) (threadId : Int) (gran : Option Granularity) : Checked StopOutcome :=
  let gran := match kind with
    | .out => none
    | _ => gran.map granularityStr
  resumeAndWait (Requests.step (stepCommand kind) threadId gran)

def pause : Checked Unit := do
  let _ ← sendChecked "pause" Requests.pause

/-- Best-effort disconnect request, then kill and reap the child. -/
def disconnect (terminate : Bool) : Dap Unit := do
  let _ ← perform (.send (Requests.disconnect terminate))
  if ← perform .takeChild then
    perform .startKill
    perform .waitChild

/-- The calls of the seam that the lifecycle and execution handlers make. -/
inductive Call where
  | launch (spec : LaunchSpec)
  | attach (spec : AttachSpec)
  | cont (threadId : Int)
  | step (kind : StepKind) (threadId : Int) (gran : Option Granularity)
  | pause
  | disconnect (terminate : Bool)

inductive Reply where
  | launch (result : Except BackendError LaunchOutcome)
  | attach (result : Except BackendError AttachOutcome)
  | resume (result : Except BackendError StopOutcome)
  | pause (result : Except BackendError Unit)
  | disconnect

/-- The body of each call. -/
def Call.program : Call → Dap Reply
  | .launch spec => return .launch (← (runLaunch spec).run)
  | .attach spec => return .attach (← (runAttach spec).run)
  | .cont threadId => return .resume (← (Operations.cont threadId).run)
  | .step kind threadId gran => return .resume (← (Operations.step kind threadId gran).run)
  | .pause => return .pause (← Operations.pause.run)
  | .disconnect terminate => do
    Operations.disconnect terminate
    return .disconnect

end LldbDebugMcp.Backend.Operations
