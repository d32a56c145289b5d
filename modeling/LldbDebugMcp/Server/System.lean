/- module: LldbDebugMcp/Server/System
   source: crates/mcp-tools/src/server.rs, crates/mcp-session/src/pump.rs
   digest: The tool server: concurrent tool calls, event pumps and connections, step by step. -/

import LldbDebugMcp.Library.Transition
import LldbDebugMcp.Server.Lifecycle
import LldbDebugMcp.Server.Execution

set_option autoImplicit false
set_option relaxedAutoImplicit false

namespace LldbDebugMcp.Server.System

open LldbDebugMcp.Core.Types
open LldbDebugMcp.Session.Manager
open LldbDebugMcp.Session.Operation
open LldbDebugMcp.Backend.Adapter (Pull)
open LldbDebugMcp.Server.Contract
open LldbDebugMcp.Server.Response
open LldbDebugMcp.Server.Handler
open LldbDebugMcp.Server.Lifecycle
open LldbDebugMcp.Server.Execution

/-- A tool call with its parsed arguments. The handlers of the other tools act on the
session through `Bookkeeping` only. -/
inductive Tool where
  | start (args : Except String StartArgs)
  | disconnect (terminate : Bool)
  | resume (args : ResumeArgs)
  | pause

/-- Where the task of a tool call stands. -/
inductive Pc where
  | start (pc : StartPc)
  | disconnect (pc : DisconnectPc)
  | resume (pc : ResumePc)
  | pause (pc : PausePc)
  | done (outcome : ToolOutcome)

def Tool.entry : Tool → Pc
  | .start args => .start (.guardIdle args)
  | .disconnect terminate => .disconnect (.guardActive terminate)
  | .resume args => .resume (.guardStopped args)
  | .pause => .pause .guardRunning

namespace Pc

/-- The session write of the next step of a task. -/
def operation : Pc → Option SessionOp
  | .start pc => pc.operation
  | .disconnect pc => pc.operation
  | .resume pc => pc.operation
  | .pause _ | .done _ => none

/-- What the next step of a task makes of the backend slot. -/
def slot (t : Nat) (backend : Option Nat) : Pc → Option Nat
  | .start pc => pc.slot t backend
  | .disconnect pc => pc.slot backend
  | .resume _ | .pause _ | .done _ => backend

def binds : Pc → Bool
  | .start pc => pc.binds
  | .disconnect _ | .resume _ | .pause _ | .done _ => false

/-- The connection on which a task awaits its backend call. -/
def awaits (t : Nat) : Pc → Option Nat
  | .start (.starting _) => some t
  | .disconnect (.disconnecting b) | .resume (.resuming _ b _) | .pause (.pausing b) => some b
  | _ => none

end Pc

/-- Put the next point of a handler in place. -/
def Pc.ofGoto {π : Type} (inj : π → Pc) : Goto π → Pc
  | .at pc => inj pc
  | .done outcome => .done outcome

structure ToolServer (S : Seam) extends World S where
  tasks : Nat → Option Pc
  tokens : Nat → Bool

inductive Action (S : Seam) where
  /-- A tool is called; the task gets a fresh name. -/
  | call (t : Nat) (tool : Tool)
  /-- The client cancels a call. -/
  | cancelToken (t : Nat)
  | task (t : Nat) (choice : Choice S)
  | conn (c : Nat) (act : S.Act)
  /-- The event pump of a connection takes the next event of one stream. -/
  | pump (c : Nat) (which : Pull)
  | bookkeeping (op : Bookkeeping)

/-- What the event pump does to the session. -/
def pumpOperation (generation : UInt64) : BackendEvent → SessionOp
  | .output category text => .appendOutput category text
  | .terminated code => .terminateIfGeneration generation code

section

variable {S : Seam}

/-- Where a task goes in its next step, and the connection that the step changes. -/
def Pc.next (w : World S) (t : Nat) (token : Bool) (choice : Choice S) :
    Pc → Option (Pc × Option (Nat × S.Conn))
  | .start pc => (pc.next w t token choice).map fun n => (ofGoto .start n.goto, n.conn)
  | .disconnect pc => (pc.next w t choice).map fun n => (ofGoto .disconnect n.goto, n.conn)
  | .resume pc => (pc.next w t token choice).map fun n => (ofGoto .resume n.goto, n.conn)
  | .pause pc => (pc.next w t choice).map fun n => (ofGoto .pause n.goto, n.conn)
  | .done _ => none

namespace ToolServer

def new : ToolServer S where
  session := SessionManager.new
  backend := none
  conns := fun _ => none
  pumps := fun _ => none
  tasks := fun _ => none
  tokens := fun _ => false

/-- A task goes on: the session write of its point, the effect on the slot, the pumps and
a connection, and its next point. -/
def goOn (s : ToolServer S) (t : Nat) (pc pc' : Pc) (conn : Option (Nat × S.Conn)) :
    ToolServer S where
  session := applyOption s.session pc.operation
  backend := pc.slot t s.backend
  conns := s.setConn conn
  pumps := if pc.binds then Function.update s.pumps t (some s.session.generation) else s.pumps
  tasks := Function.update s.tasks t (some pc')
  tokens := s.tokens

def taskStep (s : ToolServer S) (t : Nat) (choice : Choice S) : Option (ToolServer S) :=
  (s.tasks t).bind fun pc =>
    (pc.next s.toWorld t (s.tokens t) choice).map fun (pc', conn) => s.goOn t pc pc' conn

def pumpStep (s : ToolServer S) (c : Nat) (which : Pull) : Option (ToolServer S) :=
  (s.pumps c).bind fun generation => (s.conns c).bind fun k =>
    (S.pull k which).map fun (event, k') =>
      { s with
        session := (pumpOperation generation event).apply s.session
        conns := Function.update s.conns c (some k') }

def step (s : ToolServer S) : Action S → Option (ToolServer S)
  | .call t tool =>
    match s.tasks t with
    | none => some { s with tasks := Function.update s.tasks t (some tool.entry) }
    | some _ => none
  | .cancelToken t => some { s with tokens := Function.update s.tokens t true }
  | .task t choice => s.taskStep t choice
  | .conn c act =>
    (s.conns c).bind fun k => (S.act k act).map fun k' =>
      { s with conns := Function.update s.conns c (some k') }
  | .pump c which => s.pumpStep c which
  | .bookkeeping op => some { s with session := op.apply s.session }

end ToolServer

end

end LldbDebugMcp.Server.System
