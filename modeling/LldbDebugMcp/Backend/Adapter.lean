/- module: LldbDebugMcp/Backend/Adapter
   source: crates/lldb-backend/src/{backend,factory,subprocess}.rs, crates/dap-client/src/client.rs
   digest: One connection to lldb-dap: the client, the child, and the calls in flight on it. -/

import LldbDebugMcp.Client.ReadLoop
import LldbDebugMcp.Backend.Operations

set_option autoImplicit false
set_option relaxedAutoImplicit false

namespace LldbDebugMcp.Backend.Adapter

open LldbDebugMcp.Core.Types
open LldbDebugMcp.Client.Message
open LldbDebugMcp.Client.State
open LldbDebugMcp.Client.ReadLoop
open LldbDebugMcp.Library.Effect
open LldbDebugMcp.Backend.Operations

/-- Where the future of a call stands in its current operation. -/
inductive Await where
  /-- Created, and not polled yet. -/
  | created
  /-- At the operation, which has not begun. -/
  | running
  /-- A request is registered under its seq; the frame is not written yet. -/
  | writing (seq : Int)
  /-- The frame is written; the reply is awaited. -/
  | awaiting (seq : Int)
  /-- Parked on the latch of the initialized event. -/
  | parked (waiter : Nat)
  deriving DecidableEq

/-- The future of a call: what is left of its program, and the receivers it holds, of
`send_async` (`rx`) and of the stop waiter (`waiter`). -/
structure Fut where
  program : Dap Reply
  await : Await
  rx : Option Int
  waiter : Option Nat

namespace Fut

def new (program : Dap Reply) : Fut := ⟨program, .created, none, none⟩

/-- Go on with the rest of the program. -/
def goOn (f : Fut) (program : Dap Reply) : Fut := { f with program := program, await := .running }

/-- A future can be dropped only where it is suspended: before its first poll or at an
await. -/
def suspended (f : Fut) : Bool :=
  match f.await with
  | .created | .writing _ | .awaiting _ | .parked _ => true
  | .running =>
    match f.program with
    | .op .recvReply _ | .op .recvStop _ | .op .takeChild _ | .op .waitChild _ => true
    | _ => false

end Fut

/-- A connection. `child` says whether the backend still holds the handle of the process;
`killed` that `start_kill` was called on it, and `exited` that it is gone. `stderr` is the
trimmed text of the stderr ring. -/
structure Connection where
  link : Link
  pid : Option Int
  stderr : String
  child : Bool
  killed : Bool
  exited : Bool
  calls : Nat → Option Fut

/-- What the environment decides about a poll: it is simply made, or it completes the write
of a frame, which the writer takes or refuses. -/
inductive Choice where
  | go
  | accept
  | refuse (message : String)

namespace Connection

def new (pid : Option Int) : Connection where
  link := Link.new
  pid := pid
  stderr := ""
  child := true
  killed := false
  exited := false
  calls := fun _ => none

def setShared (c : Connection) (shared : Shared) : Connection :=
  { c with link := { c.link with shared := shared } }

/-- Begin the operation that the future has come to. -/
def enter (c : Connection) (f : Fut) : Option (Connection × Fut) :=
  match f.program with
  | .done _ => none
  | .op (.send _) _ | .op (.sendAsync _) _ =>
    let (seq, shared) := c.link.shared.registerPending
    some (c.setShared shared, { f with await := .writing seq })
  | .op .waitInitialized next =>
    match c.link.shared.waitInitialized with
    | (none, _) => some (c, f.goOn (next ()))
    | (some waiter, shared) => some (c.setShared shared, { f with await := .parked waiter })
  | .op .register next =>
    let (waiter, shared) := c.link.shared.register
    some (c.setShared shared, { f.goOn (next ()) with waiter := some waiter })
  | .op .recvReply next =>
    (f.rx.bind fun seq => (c.link.shared.replies seq).poll).map fun r => (c, f.goOn (next r))
  | .op .recvStop next =>
    (f.waiter.bind fun w => (c.link.shared.stopWaiter.chan w).poll).map fun r =>
      (c, f.goOn (next r))
  | .op .stderr next => some (c, f.goOn (next c.stderr))
  | .op .takeChild next => some ({ c with child := false }, f.goOn (next c.child))
  | .op .startKill next => some ({ c with killed := true }, f.goOn (next ()))
  | .op .waitChild next => if c.exited then some (c, f.goOn (next ())) else none

/-- The writer takes the frame of the request. -/
def accepted (c : Connection) (f : Fut) (seq : Int) : Option (Connection × Fut) :=
  match f.program with
  | .op (.send request) _ =>
    some ({ c with link := c.link.accept (request.setSeq seq) }, { f with await := .awaiting seq })
  | .op (.sendAsync request) next =>
    some ({ c with link := c.link.accept (request.setSeq seq) },
      { f.goOn (next (.ok ())) with rx := some seq })
  | _ => none

/-- The write fails: the pending entry is rolled back. -/
def refused (c : Connection) (f : Fut) (seq : Int) (message : String) :
    Option (Connection × Fut) :=
  match f.program with
  | .op (.send _) next | .op (.sendAsync _) next =>
    some (c.setShared (c.link.shared.removePending seq), f.goOn (next (.error (.send message))))
  | _ => none

/-- The reply of a `send` has come, or its sender is gone. -/
def replied (c : Connection) (f : Fut) (seq : Int) : Option (Connection × Fut) :=
  match f.program with
  | .op (.send _) next =>
    (c.link.shared.replies seq).poll.map fun r =>
      (c, f.goOn (next (r.getD (.error .closed))))
  | _ => none

/-- The latch has fired, or the waiter was replaced. -/
def woken (c : Connection) (f : Fut) (waiter : Nat) : Option (Connection × Fut) :=
  match f.program with
  | .op .waitInitialized next =>
    (c.link.shared.initialized.chan waiter).poll.map fun _ => (c, f.goOn (next ()))
  | _ => none

/-- One poll of a future. -/
def advance (c : Connection) (f : Fut) (choice : Choice) : Option (Connection × Fut) :=
  match f.await, choice with
  | .created, .go | .running, .go => c.enter f
  | .writing seq, .accept => c.accepted f seq
  | .writing seq, .refuse message => c.refused f seq message
  | .awaiting seq, .go => c.replied f seq
  | .parked waiter, .go => c.woken f waiter
  | _, _ => none

def setCall (c : Connection) (t : Nat) (f : Option Fut) : Connection :=
  { c with calls := Function.update c.calls t f }

def poll (c : Connection) (t : Nat) (choice : Choice) : Option Connection :=
  (c.calls t).bind fun f =>
    (c.advance f choice).map fun (c', f') => c'.setCall t (some f')

/-- A call begins: its future is created. -/
def start (c : Connection) (t : Nat) (program : Dap Reply) : Option Connection :=
  match c.calls t with
  | none => some (c.setCall t (some (Fut.new program)))
  | some _ => none

/-- What the drop of a future does: the abort guard of a `send` removes its entry. -/
def dropFut (c : Connection) (f : Fut) : Connection :=
  match f.await, f.program with
  | .writing seq, .op (.send _) _ | .awaiting seq, .op (.send _) _ =>
    c.setShared (c.link.shared.removePending seq)
  | _, _ => c

/-- A future is dropped before it is done. -/
def cancel (c : Connection) (t : Nat) : Option Connection :=
  (c.calls t).bind fun f =>
    if f.suspended then some ((c.dropFut f).setCall t none) else none

/-- A future is done, and its caller takes the reply. -/
def finish (c : Connection) (t : Nat) : Option (Reply × Connection) :=
  match c.calls t with
  | some ⟨.done reply, _, _, _⟩ => some (reply, c.setCall t none)
  | _ => none

end Connection

/-- What happens on a connection by itself: a future is polled, the adapter sends or
closes, the read loop goes on, the process exits or writes to its stderr. -/
inductive Act where
  | poll (t : Nat) (choice : Choice)
  | receive (message : DapMessage)
  | readError
  | proceed
  | childExit
  | stderr (text : String)

/-- The two streams that the event stream merges. -/
inductive Pull where
  | output
  | terminated
  deriving DecidableEq

namespace Connection

def setLink (c : Connection) (link : Link) : Connection := { c with link := link }

def act (c : Connection) : Act → Option Connection
  | .poll t choice => c.poll t choice
  | .receive message => (c.link.receive message).map c.setLink
  | .readError => c.link.readError.map c.setLink
  | .proceed => c.link.proceed.map c.setLink
  | .childExit => some { c with exited := true }
  | .stderr text => some { c with stderr := text }

/-- The next event of one of the merged streams. -/
def pull (c : Connection) (which : Pull) : Option (BackendEvent × Connection) :=
  (match which with
    | .output => c.link.pullOutput
    | .terminated => c.link.pullTerminated).map fun (event, link) => (event, c.setLink link)

end Connection

/-- Everything that can happen to a connection: calls come and go, the event stream is
read, and what happens by itself. -/
inductive Action where
  | start (t : Nat) (program : Dap Reply)
  | cancel (t : Nat)
  | finish (t : Nat)
  | pull (which : Pull)
  | act (a : Act)

namespace Connection

def step (c : Connection) : Action → Option Connection
  | .start t program => c.start t program
  | .cancel t => c.cancel t
  | .finish t => (c.finish t).map (·.2)
  | .pull which => (c.pull which).map (·.2)
  | .act a => c.act a

end Connection

end LldbDebugMcp.Backend.Adapter
