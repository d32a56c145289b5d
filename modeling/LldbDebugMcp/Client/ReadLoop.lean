/- module: LldbDebugMcp/Client/ReadLoop
   source: crates/dap-client/src/read_loop.rs
   digest: The client side of one connection: shared state, writer, read loop and its sinks. -/

import LldbDebugMcp.Client.State

set_option autoImplicit false
set_option relaxedAutoImplicit false

namespace LldbDebugMcp.Client.ReadLoop

open LldbDebugMcp.Core.Types
open LldbDebugMcp.Client.Message
open LldbDebugMcp.Client.State

/-- Where the read-loop task is. Each phase but `reading` stands between two lock
acquisitions of one dispatch or of `recover`. -/
inductive Phase where
  /-- Awaiting the next message. -/
  | reading
  /-- A terminated event has fired the signal; the stop waiter is cancelled next. -/
  | terminating
  /-- `recover` has failed the pending requests. -/
  | drained
  /-- `recover` has cancelled the stop waiter. -/
  | cancelled
  /-- `recover` has returned and the task is over. -/
  | stopped
  deriving DecidableEq, Repr

/-- The terminated signal: fired at most once, and taken by the event stream. -/
inductive Signal where
  | unsent
  | sent (code : Option Int)
  | taken
  deriving DecidableEq, Repr

/-- What last happened to the debuggee's execution. -/
inductive Execution where
  | stopped (info : StopInfo)
  | exited
  | terminated
  | resumed
  deriving DecidableEq, Repr

/-- The client side of a connection. `wire` holds the frames that the writer accepted,
newest last, and `lastExecution` is a history variable that no code reads. -/
structure Link where
  shared : Shared
  wire : List Request
  loop : Phase
  lastExitCode : Option Int
  terminated : Signal
  output : List OutputBody
  lastExecution : Option Execution

namespace Link

def new : Link where
  shared := Shared.new
  wire := []
  loop := .reading
  lastExitCode := none
  terminated := .unsent
  output := []
  lastExecution := none

/-- `Sinks::fire_terminated`: send the last exit code unless the sender is gone. -/
def fireTerminated (l : Link) : Link :=
  match l.terminated with
  | .unsent => { l with terminated := .sent l.lastExitCode }
  | _ => l

def dispatchEvent (l : Link) : Event → Link
  | .stopped body =>
    { l with
      shared := l.shared.deliver body
      lastExecution := some (.stopped (stopInfoFromEvent body)) }
  | .initialized => { l with shared := l.shared.signalInitialized }
  | .output body => { l with output := l.output ++ [body] }
  | .exited body =>
    { l with
      shared := l.shared.deliverExit body.exitCode
      lastExitCode := some body.exitCode
      lastExecution := some .exited }
  | .terminated =>
    { l.fireTerminated with loop := .terminating, lastExecution := some .terminated }
  | .thread | .breakpoint | .process | .continued | .module | .capabilities => l

def dispatch (l : Link) : DapMessage → Link
  | .event event => l.dispatchEvent event
  | .response response =>
    { l with shared := (l.shared.dispatchResponse response.requestSeq (.response response)).1 }
  | .other _ => l

/-- One message is read and dispatched. -/
def receive (l : Link) (message : DapMessage) : Option Link :=
  if l.loop = .reading then some (l.dispatch message) else none

/-- The transport closes, or a frame is malformed: `recover` begins. -/
def readError (l : Link) : Option Link :=
  if l.loop = .reading then
    some { l with
      shared := l.shared.cancelAllPending .closed
      loop := .drained
      lastExecution := some .terminated }
  else none

/-- The rest of a terminated event's dispatch, and of `recover`. -/
def proceed (l : Link) : Option Link :=
  match l.loop with
  | .terminating => some { l with shared := l.shared.cancel, loop := .reading }
  | .drained => some { l with shared := l.shared.cancel, loop := .cancelled }
  | .cancelled => some { l.fireTerminated with loop := .stopped }
  | .reading | .stopped => none

/-- The next output event of the stream. -/
def pullOutput (l : Link) : Option (BackendEvent × Link) :=
  match l.output with
  | [] => none
  | body :: rest => some (.output body.category body.output, { l with output := rest })

/-- The terminated event of the stream. -/
def pullTerminated (l : Link) : Option (BackendEvent × Link) :=
  match l.terminated with
  | .sent code => some (.terminated code, { l with terminated := .taken })
  | _ => none

/-- The commands that set a stopped debuggee running. -/
def resumeCommands : List String := ["continue", "next", "stepIn", "stepOut"]

/-- The writer takes a frame. -/
def accept (l : Link) (request : Request) : Link :=
  { l with
    wire := l.wire ++ [request]
    lastExecution :=
      if request.command ∈ resumeCommands then some .resumed else l.lastExecution }

end Link

end LldbDebugMcp.Client.ReadLoop
