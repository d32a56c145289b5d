/- module: LldbDebugMcp/Server/Contract
   source: crates/debugger-core/src/backend.rs
   digest: The seam between the tool handlers and a debugger backend. -/

import LldbDebugMcp.Backend.Adapter

set_option autoImplicit false
set_option relaxedAutoImplicit false

namespace LldbDebugMcp.Server.Contract

open LldbDebugMcp.Core.Types
open LldbDebugMcp.Backend.Operations
open LldbDebugMcp.Backend.Adapter

/-- A backend as the tool handlers see it: a factory that connects, calls that are begun,
dropped or finished, a stream of events, and whatever the connection does by itself. -/
structure Seam where
  Conn : Type
  /-- What a `connect()` depends on. -/
  Conf : Type
  Act : Type
  connect : Conf → Conn
  start : Conn → Nat → Call → Option Conn
  cancel : Conn → Nat → Option Conn
  finish : Conn → Nat → Option (Reply × Conn)
  act : Conn → Act → Option Conn
  pull : Conn → Pull → Option (BackendEvent × Conn)
  debuggerPid : Conn → Option Int

/-- The lldb-dap backend. A `connect()` determines the pid of the new process. -/
@[reducible] def lldb : Seam where
  Conn := Connection
  Conf := Option Int
  Act := Act
  connect := Connection.new
  start c t call := c.start t call.program
  cancel := Connection.cancel
  finish := Connection.finish
  act := Connection.act
  pull := Connection.pull
  debuggerPid := Connection.pid

end LldbDebugMcp.Server.Contract
