/- module: LldbDebugMcp/Server/Handler
   source: crates/mcp-tools/src/server.rs, crates/mcp-session/src/pump.rs
   digest: What the handlers share, and what one step of a handler does to it. -/

import LldbDebugMcp.Session.Operation
import LldbDebugMcp.Server.Contract
import LldbDebugMcp.Server.Response

set_option autoImplicit false
set_option relaxedAutoImplicit false

namespace LldbDebugMcp.Server.Handler

open LldbDebugMcp.Core.Types
open LldbDebugMcp.Session.Manager (SessionManager)
open LldbDebugMcp.Session.Operation
open LldbDebugMcp.Server.Contract
open LldbDebugMcp.Server.Response (ToolOutcome)

/-- The state that handlers and event pumps share. A connection is named by the launch or
attach call that opened it; `backend` is the slot of the server, and `pumps` gives the
generation that the event pump of a connection captured. -/
structure World (S : Seam) where
  session : SessionManager
  backend : Option Nat
  conns : Nat → Option S.Conn
  pumps : Nat → Option UInt64

/-- What the environment decides about a step of a handler. -/
inductive Choice (S : Seam) where
  /-- The step has one outcome. -/
  | go
  | connected (conf : S.Conf)
  | connectFailed (e : BackendError)
  /-- The awaited call is done. -/
  | reply
  /-- The cancellation token has fired, and the select takes that branch. -/
  | cancelled
  /-- The 5-second bound expires. -/
  | timeout

/-- Where a handler goes: to its next point, or out with a result. -/
inductive Goto (π : Type) where
  | at (pc : π)
  | done (outcome : ToolOutcome)

/-- The outcome of a step: where the handler goes, and the connection that the step
changed. -/
structure Next (S : Seam) (π : Type) where
  goto : Goto π
  conn : Option (Nat × S.Conn)

section

variable {S : Seam} {π : Type}

def goTo (pc : π) : Option (Next S π) := some ⟨.at pc, none⟩

def return_ (outcome : ToolOutcome) : Option (Next S π) := some ⟨.done outcome, none⟩

namespace World

/-- Begin a call on a connection. -/
def startCall (w : World S) (b t : Nat) (call : Backend.Operations.Call) (pc : π) :
    Option (Next S π) :=
  (w.conns b).bind fun c => (S.start c t call).map fun c' => ⟨.at pc, some (b, c')⟩

/-- Drop a call on a connection. -/
def dropCall (w : World S) (b t : Nat) (goto : Goto π) : Option (Next S π) :=
  (w.conns b).bind fun c => (S.cancel c t).map fun c' => ⟨goto, some (b, c')⟩

/-- Take the reply of a call. -/
def takeReply (w : World S) (b t : Nat) (goto : Backend.Operations.Reply → Option (Goto π)) :
    Option (Next S π) :=
  (w.conns b).bind fun c => (S.finish c t).bind fun (reply, c') =>
    (goto reply).map fun goto => ⟨goto, some (b, c')⟩

/-- Store the connection that a step changed. -/
def setConn (w : World S) : Option (Nat × S.Conn) → Nat → Option S.Conn
  | none => w.conns
  | some (b, c) => Function.update w.conns b (some c)

variable {w : World S} {b t : Nat} {n : Next S π}

theorem startCall_eq {call : Backend.Operations.Call} {pc : π}
    (h : w.startCall b t call pc = some n) :
    ∃ k k', w.conns b = some k ∧ S.start k t call = some k' ∧ n = ⟨.at pc, some (b, k')⟩ := by
  obtain ⟨k, here, rest⟩ := Option.bind_eq_some_iff.mp h
  obtain ⟨k', started, rfl⟩ := Option.map_eq_some_iff.mp rest
  exact ⟨k, k', here, started, rfl⟩

theorem dropCall_eq {goto : Goto π} (h : w.dropCall b t goto = some n) :
    ∃ k k', w.conns b = some k ∧ S.cancel k t = some k' ∧ n = ⟨goto, some (b, k')⟩ := by
  obtain ⟨k, here, rest⟩ := Option.bind_eq_some_iff.mp h
  obtain ⟨k', dropped, rfl⟩ := Option.map_eq_some_iff.mp rest
  exact ⟨k, k', here, dropped, rfl⟩

theorem takeReply_eq {goto : Backend.Operations.Reply → Option (Goto π)}
    (h : w.takeReply b t goto = some n) :
    ∃ k k' reply g, w.conns b = some k ∧ S.finish k t = some (reply, k') ∧
      goto reply = some g ∧ n = ⟨g, some (b, k')⟩ := by
  obtain ⟨k, here, rest⟩ := Option.bind_eq_some_iff.mp h
  obtain ⟨⟨reply, k'⟩, finished, rest⟩ := Option.bind_eq_some_iff.mp rest
  obtain ⟨g, hg, rfl⟩ := Option.map_eq_some_iff.mp rest
  exact ⟨k, k', reply, g, here, finished, hg, rfl⟩

end World

end

end LldbDebugMcp.Server.Handler
