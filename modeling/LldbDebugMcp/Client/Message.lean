/- module: LldbDebugMcp/Client/Message
   source: crates/dap-client/src/wire.rs
   digest: The decoded DAP messages that the client exchanges. -/

import LldbDebugMcp.Core.Types

set_option autoImplicit false
set_option relaxedAutoImplicit false

namespace LldbDebugMcp.Client.Message

open LldbDebugMcp.Core.Types

structure Request where
  seq : Int
  ty : String
  command : String
  arguments : Option Value

namespace Request

def new (command : String) (arguments : Option Value) : Request :=
  ⟨0, "request", command, arguments⟩

def setSeq (r : Request) (seq : Int) : Request := { r with seq := seq }

@[simp] theorem setSeq_seq (r : Request) (seq : Int) : (r.setSeq seq).seq = seq := rfl
@[simp] theorem setSeq_command (r : Request) (seq : Int) :
    (r.setSeq seq).command = r.command := rfl

end Request

structure Response where
  seq : Int
  ty : String
  requestSeq : Int
  success : Bool
  command : String
  message : String
  body : Option Value

structure StoppedBody where
  reason : String
  description : String
  threadId : Int
  text : String
  allThreadsStopped : Bool
  hitBreakpointIds : List Int
  deriving DecidableEq

structure OutputBody where
  category : String
  output : String
  deriving DecidableEq

structure ExitedBody where
  exitCode : Int
  deriving DecidableEq

/-- The events that the read loop recognizes; the last six are only logged. -/
inductive Event where
  | initialized
  | stopped (body : StoppedBody)
  | output (body : OutputBody)
  | exited (body : ExitedBody)
  | terminated
  | thread
  | breakpoint
  | process
  | continued
  | module
  | capabilities
  deriving DecidableEq

structure Envelope where
  seq : Int
  ty : String
  command : Option String
  event : Option String
  deriving DecidableEq

inductive DapMessage where
  | response (response : Response)
  | event (event : Event)
  | other (envelope : Envelope)

/-- The neutral snapshot of a stopped event. -/
def stopInfoFromEvent (body : StoppedBody) : StopInfo :=
  ⟨body.reason, body.threadId, body.description, body.hitBreakpointIds⟩

end LldbDebugMcp.Client.Message
