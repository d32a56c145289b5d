/- module: LldbDebugMcp/Server/Lldb
   source: crates/lldb-backend/src/factory.rs, crates/debug-mcp/src/main.rs
   digest: The server over the lldb-dap backend: its connections, and how a launch goes. -/

import LldbDebugMcp.Backend.Steps
import LldbDebugMcp.Server.Steps

set_option autoImplicit false
set_option relaxedAutoImplicit false

namespace LldbDebugMcp.Server.Lldb

open LldbDebugMcp.Core.Types
open LldbDebugMcp.Client.Message
open LldbDebugMcp.Library.Transition
open LldbDebugMcp.Backend.Adapter
open LldbDebugMcp.Backend.Steps (Called Served)
open LldbDebugMcp.Server.Contract
open LldbDebugMcp.Server.Response (ToolOutcome)
open LldbDebugMcp.Server.Lifecycle
open LldbDebugMcp.Server.Execution
open LldbDebugMcp.Server.System
open LldbDebugMcp.Server.Steps

/-- Whatever the server does with a connection is something that can happen to one. -/
theorem moves_of_connMoves {k k' : Connection} (moved : ConnMoves (S := lldb) k k') :
    k' = k ∨ ∃ a, Called k a ∧ k.step a = some k' := by
  cases moved with
  | stay same => exact .inl same
  | @start t call started => exact .inr ⟨.start t call.program, ⟨call, rfl⟩, started⟩
  | @cancel t dropped => exact .inr ⟨.cancel t, trivial, dropped⟩
  | @finish t reply finished =>
    exact .inr ⟨.finish t, trivial, congrArg (Option.map Prod.snd) finished⟩
  | @act a acted => exact .inr ⟨.act a, trivial, acted⟩
  | @pull which event pulled =>
    exact .inr ⟨.pull which, trivial, congrArg (Option.map Prod.snd) pulled⟩

theorem conn_served {s : ToolServer lldb} (reach : Reach ToolServer.step ToolServer.new s) {c : Nat}
    {k : Connection} (here : s.conns c = some k) : Served k := by
  refine conns_keep (S := lldb) (J := Served) (fun pid => ⟨pid, [], .nil _⟩) ?_ reach here
  rintro k k' ⟨pid, as, run⟩ moved
  rcases moves_of_connMoves moved with rfl | ⟨a, called, taken⟩
  · exact ⟨pid, as, run⟩
  · exact ⟨pid, as ++ [a], run.append (.single called taken)⟩

/-! The course of a launch, for runs that begin with one. -/

/-- The successful response to the request of a seq. -/
def answer (seq : Int) : DapMessage :=
  .response ⟨0, "response", seq, true, "", "", none⟩

def stoppedEvent (reason : String) : DapMessage := .event (.stopped ⟨reason, "", 1, "", true, []⟩)

def terminatedEvent : DapMessage := .event .terminated

/-- The next steps of a task, none of which has a choice. -/
def proceed (t n : Nat) : List (Server.System.Action lldb) := List.replicate n (.task t .go)

def poll (c t : Nat) : Server.System.Action lldb := .conn c (.poll t .go)

def receive (c : Nat) (message : DapMessage) : Server.System.Action lldb :=
  .conn c (.receive message)

/-- A call writes its next request. -/
def write (c t : Nat) : List (Server.System.Action lldb) := [poll c t, .conn c (.poll t .accept)]

/-- A call writes a request, and goes on with the answer to it. -/
def exchange (c t : Nat) (seq : Int) : List (Server.System.Action lldb) :=
  write c t ++ [receive c (answer seq), poll c t]

/-- A launch without breakpoints, up to its backend call. -/
def launchCall (t : Nat) (stopOnEntry : Bool) : List (Server.System.Action lldb) :=
  [.call t (.start (.ok (.launch ⟨"/bin/demo", [], "", [], stopOnEntry⟩)))] ++ proceed t 3 ++
    [.task t (.connected (some 4711))] ++ proceed t 2

/-- Its handshake, up to the launch response. -/
def handshake (t : Nat) (stopOnEntry : Bool) : List (Server.System.Action lldb) :=
  exchange t t 1 ++ write t t ++ [receive t (.event .initialized), poll t t] ++
    exchange t t 3 ++ (if stopOnEntry then [poll t t] else []) ++ exchange t t 4

/-- The launch response and the writes that follow it, for a launch that does not stop. -/
def launchRunning (t : Nat) : List (Server.System.Action lldb) :=
  [receive t (answer 2), poll t t, .task t .reply] ++ proceed t 4

/-- The launch response, the stop at the entry and the writes that follow it. -/
def launchStopped (t : Nat) : List (Server.System.Action lldb) :=
  [receive t (answer 2), poll t t, receive t (stoppedEvent "entry"), poll t t, .task t .reply] ++
    proceed t 5

/-- A disconnect whose request is answered, and the exit of the child. -/
def disconnected (t c : Nat) (seq : Int) : List (Server.System.Action lldb) :=
  [.call t (.disconnect true)] ++ proceed t 2 ++ exchange c t seq ++
    [poll c t, poll c t, .conn c .childExit, poll c t, .task t .reply] ++ proceed t 3

/-- Only these tasks are called. -/
def calls (ts : List Nat) (a : Server.System.Action lldb) : Bool :=
  match a with
  | .call t _ => ts.contains t
  | _ => true

/-- No task but the first is called. -/
def onlyFirst : Server.System.Action lldb → Bool := calls [0]

/-- No other task is there. -/
def Among (ts : List Nat) (s : ToolServer lldb) : Prop := ∀ t, t ∉ ts → s.tasks t = none

theorem Among.step {ts : List Nat} {s s' : ToolServer lldb} {a : Server.System.Action lldb}
    (among : Among ts s) (called : calls ts a = true) (taken : s.step a = some s') :
    Among ts s' := by
  refine fun t other => task_absent taken (among t other) ?_
  rintro tool rfl
  exact other (List.contains_iff_mem.mp called)

private theorem run_calls {P : ToolServer lldb → Server.System.Action lldb → Prop} {ts : List Nat}
    {s₀ s : ToolServer lldb} {as : List (Server.System.Action lldb)}
    (run : Run ToolServer.step P s₀ as s)
    (only : as.all (calls ts) = true) :
    Run ToolServer.step (fun s a => calls ts a = true ∧ P s a) s₀ as s :=
  .both (run.restrict fun a mem _ => List.all_eq_true.mp only a mem) run

theorem among_of_run {P : ToolServer lldb → Server.System.Action lldb → Prop} {ts : List Nat}
    {s : ToolServer lldb} {as : List (Server.System.Action lldb)}
    (run : Run ToolServer.step P ToolServer.new as s)
    (only : as.all (calls ts) = true) : Among ts s :=
  (run_calls run only).keeps (I := Among ts)
    (fun _ _ _ among called taken => among.step called.1 taken) fun _ _ => rfl

/-- A condition that follows from one that can be evaluated, while no other tasks are there. -/
theorem Among.run_of_checked {C P : ToolServer lldb → Server.System.Action lldb → Prop}
    [∀ s a, Decidable (C s a)] {ts : List Nat} {s₀ s : ToolServer lldb}
    {as : List (Server.System.Action lldb)} (among : Among ts s₀) (only : as.all (calls ts) = true)
    (checked : ∀ s a, Among ts s → C s a → P s a)
    (executed : exec ToolServer.step C s₀ as = some s) : Run ToolServer.step P s₀ as s :=
  (run_calls (run_of_exec executed) only).strengthen (I := Among ts)
    (fun _ _ _ among called taken => among.step called.1 taken)
    (fun s a _ among called _ => checked s a among called.2) among

theorem among_new (ts : List Nat) : Among ts ToolServer.new := fun _ _ => rfl

/-- The other tasks were not called. -/
theorem absent_of_onlyFirst {s : ToolServer lldb} {as : List (Server.System.Action lldb)}
    (run : Run ToolServer.step anyStep ToolServer.new as s) (only : as.all onlyFirst = true)
    {t : Nat}
    (other : t ≠ 0) : s.tasks t = none :=
  among_of_run run only t fun mem => other (List.mem_singleton.mp mem)

/-- Once the call of the one task has returned, no handler is in flight. -/
theorem quiet_of_onlyFirst {s : ToolServer lldb} {as : List (Server.System.Action lldb)}
    {outcome : ToolOutcome} (run : Run ToolServer.step anyStep ToolServer.new as s)
    (only : as.all onlyFirst = true) (done : s.tasks 0 = some (.done outcome)) : Quiet s := by
  intro t pc at_
  by_cases first : t = 0
  · subst first
    exact ⟨outcome, Option.some.inj (at_.symm.trans done)⟩
  · cases (absent_of_onlyFirst run only first).symm.trans at_

end LldbDebugMcp.Server.Lldb
