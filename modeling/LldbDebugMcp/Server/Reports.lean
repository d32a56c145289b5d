/- module: LldbDebugMcp/Server/Reports
   source: crates/mcp-tools/src/handlers/{lifecycle,execution}.rs,
   crates/dap-client/src/read_loop.rs
   digest: No stop and no exit code is reported to more tool calls than events announced it. -/

import LldbDebugMcp.Backend.Reports
import LldbDebugMcp.Server.Calls

set_option autoImplicit false
set_option relaxedAutoImplicit false

namespace LldbDebugMcp.Server.Reports

open LldbDebugMcp.Core.Types
open LldbDebugMcp.Library.Transition
open LldbDebugMcp.Backend.Adapter (Connection)
open LldbDebugMcp.Backend.Steps (finish_eq)
open LldbDebugMcp.Backend.Reports (Books books_new reported)
open LldbDebugMcp.Server.Contract
open LldbDebugMcp.Server.Handler
open LldbDebugMcp.Server.Lifecycle
open LldbDebugMcp.Server.Execution
open LldbDebugMcp.Server.System
open LldbDebugMcp.Server.Steps
open LldbDebugMcp.Server.Lldb
open LldbDebugMcp.Server.Calls

variable {s s' : ToolServer lldb} {a : System.Action lldb} {c t : Nat}

/-- The stop or exit code of the debuggee that is read on a connection. -/
def announced (c : Nat) : System.Action lldb → List StopOutcome
  | .conn b act => if b = c then Backend.Reports.announced (.act act) else []
  | _ => []

/-- The stop or exit code that a tool call takes from the reply of its backend call. -/
def takes (c : Nat) (s : ToolServer lldb) : System.Action lldb → List StopOutcome
  | .task t .reply =>
    match s.tasks t, s.conns c with
    | some pc, some k =>
      if pc.awaits t = some c then ((k.finish t).bind fun r => reported r.1).toList else []
    | _, _ => []
  | _ => []

theorem takes_cases (c : Nat) (s : ToolServer lldb) (a : System.Action lldb) : takes c s a = [] ∨
    ∃ t pc k reply k', a = .task t .reply ∧ s.tasks t = some pc ∧ pc.awaits t = some c ∧
      s.conns c = some k ∧ k.finish t = some (reply, k') ∧
      takes c s a = (reported reply).toList := by
  unfold takes
  split
  · rename_i t
    split
    · rename_i pc k at_ here
      split
      · rename_i awaits
        cases finished : k.finish t with
        | none => exact .inl rfl
        | some r => exact .inr ⟨t, pc, k, r.1, r.2, rfl, at_, awaits, here, finished, rfl⟩
      · exact .inl rfl
    · exact .inl rfl
  · exact .inl rfl

/-- A handler that goes on with the reply of its call has taken it. -/
theorem reply_next {w : World lldb} {token : Bool} {pc pc' : Pc} {conn : Option (Nat × Connection)}
    (next : pc.next w t token .reply = some (pc', conn)) (awaits : pc.awaits t = some c) :
    ∃ k reply k', w.conns c = some k ∧ k.finish t = some (reply, k') ∧ conn = some (c, k') := by
  have took : ∀ {π : Type} {goto : Backend.Operations.Reply → Option (Goto π)} {n : Next lldb π},
      w.takeReply c t goto = some n → n.conn = conn →
      ∃ k reply k', w.conns c = some k ∧ k.finish t = some (reply, k') ∧ conn = some (c, k') := by
    rintro π goto n taken rfl
    obtain ⟨k, k', reply, g, here, finished, -, rfl⟩ := World.takeReply_eq taken
    exact ⟨k, reply, k', here, finished, rfl⟩
  cases pc with
  | start pc =>
    obtain ⟨n, next, eq⟩ := Option.map_eq_some_iff.mp next
    cases pc with
    | starting plan =>
      cases awaits
      simp only [StartPc.next] at next
      exact took next (congrArg Prod.snd eq)
    | _ => cases awaits
  | disconnect pc =>
    obtain ⟨n, next, eq⟩ := Option.map_eq_some_iff.mp next
    cases pc with
    | disconnecting b =>
      cases awaits
      simp only [DisconnectPc.next] at next
      exact took next (congrArg Prod.snd eq)
    | _ => cases awaits
  | resume pc =>
    obtain ⟨n, next, eq⟩ := Option.map_eq_some_iff.mp next
    cases pc with
    | resuming args b g =>
      cases awaits
      simp only [ResumePc.next] at next
      exact took next (congrArg Prod.snd eq)
    | _ => cases awaits
  | pause pc =>
    obtain ⟨n, next, eq⟩ := Option.map_eq_some_iff.mp next
    cases pc with
    | pausing b =>
      cases awaits
      simp only [PausePc.next] at next
      exact took next (congrArg Prod.snd eq)
    | _ => cases awaits
  | done => cases awaits

/-- The books of a connection, if there is one. -/
def Kept (c : Nat) (news reports : List StopOutcome) (s : ToolServer lldb) : Prop :=
  match s.conns c with
  | none => reports = []
  | some k => Books news reports k

variable {news reports : List StopOutcome}

theorem kept_step (reach : Reach ToolServer.step ToolServer.new s) (kept : Kept c news reports s)
    (taken : s.step a = some s') :
    Kept c (news ++ announced c a) (reports ++ takes c s a) s' := by
  rcases takes_cases c s a with idle | ⟨t, pc, k, reply, k', rfl, at_, awaits, here, finished, eq⟩
  · rw [idle, List.append_nil]
    cases here : s.conns c with
    | none =>
      simp only [Kept, here] at kept
      subst kept
      cases there : s'.conns c with
      | none => simp only [Kept, there]
      | some k' =>
        simp only [Kept, there]
        rcases conns_cases taken there with ⟨_, _, conf, _, _, _, rfl⟩ | ⟨k, old, _⟩
        · exact books_new _ conf
        · cases here.symm.trans old
    | some k =>
      simp only [Kept, here] at kept
      obtain ⟨k', there, moved⟩ := conn_driven reach taken here
      simp only [Kept, there]
      rcases moved with rfl | ⟨act, drives, moves⟩
      · exact kept.more _
      · have books := kept.moves (conn_served reach here).sound moves
        cases drives with
        | act act => simpa [announced] using books
        | pull | start | cancel | finish =>
          simp only [Backend.Reports.announced, List.append_nil] at books
          exact books.more _
  · simp only [Kept, here] at kept
    obtain ⟨pc', conn, next, rfl⟩ := task_next taken at_
    obtain ⟨k₁, reply₁, k₂, here₁, finished₁, rfl⟩ := reply_next next awaits
    obtain rfl := Option.some.inj (here.symm.trans here₁)
    obtain ⟨rfl, rfl⟩ := Prod.mk.inj (Option.some.inj (finished.symm.trans finished₁))
    have there : (s.goOn t pc pc' (some (c, k'))).conns c = some k' := Function.update_self ..
    obtain ⟨f, call, done, rfl⟩ := finish_eq finished
    simp only [Kept, there, eq]
    exact (kept.finish (conn_served reach here) call done).more _

/-- In every run, the stops and exit codes that tool calls take from the replies of a connection
are among those that it has announced, each at most as often: none is made up, and none goes to
two calls. -/
theorem stops_reported_once {P : ToolServer lldb → System.Action lldb → Prop}
    {as : List (System.Action lldb)} (run : Run ToolServer.step P ToolServer.new as s) (c : Nat) :
    (emits ToolServer.step (takes c) ToolServer.new as).Subperm (as.flatMap (announced c)) := by
  have kept := run.keeps_history
    (I := fun as s => Kept c (as.flatMap (announced c))
      (emits ToolServer.step (takes c) ToolServer.new as) s)
    (fun as s a s' before kept _ taken => by
      rw [before.emits_concat, List.flatMap_append, List.flatMap_singleton]
      exact kept_step ⟨as, before.any⟩ kept taken)
    rfl
  unfold Kept at kept
  split at kept
  · rw [kept]
    exact List.nil_subperm
  · exact kept.balance

/-- A launch that stops at the entry. -/
def entryStop : List (System.Action lldb) :=
  launchCall 0 true ++ handshake 0 true ++ launchStopped 0

theorem stops_reported_once_entry : (∃ s, Run ToolServer.step anyStep ToolServer.new entryStop s) ∧
    emits ToolServer.step (takes 0) ToolServer.new entryStop = [.stopped ⟨"entry", 1, "", []⟩] ∧
    (emits ToolServer.step (takes 0) ToolServer.new entryStop).Subperm
      (entryStop.flatMap (announced 0)) := by
  have eval : (exec ToolServer.step anyStep (ToolServer.new : ToolServer lldb) entryStop).isSome =
      true := by
    decide +kernel
  obtain ⟨s, executed⟩ := Option.isSome_iff_exists.mp eval
  exact ⟨⟨s, run_of_exec executed⟩, by decide +kernel, stops_reported_once (run_of_exec executed) 0⟩

end LldbDebugMcp.Server.Reports
