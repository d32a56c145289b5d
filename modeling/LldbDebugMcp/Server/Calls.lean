/- module: LldbDebugMcp/Server/Calls
   source: crates/mcp-tools/src/handlers/{lifecycle,execution}.rs
   digest: Which handler awaits which call on which connection. -/

import LldbDebugMcp.Backend.ResumeCall
import LldbDebugMcp.Server.Lldb

set_option autoImplicit false
set_option relaxedAutoImplicit false

namespace LldbDebugMcp.Server.Calls

open LldbDebugMcp.Core.Types
open LldbDebugMcp.Client.ReadLoop (Link)
open LldbDebugMcp.Library.Transition
open LldbDebugMcp.Backend.Operations (Call)
open LldbDebugMcp.Backend.Adapter (Connection Fut)
open LldbDebugMcp.Backend.Steps (calls_of_moves cancel_eq finish_eq start_eq pollStep_dropFut)
open LldbDebugMcp.Backend.ResumeCall (resumeProgram program_cont program_step)
open LldbDebugMcp.Server.Contract
open LldbDebugMcp.Server.Execution
open LldbDebugMcp.Server.Handler
open LldbDebugMcp.Server.System
open LldbDebugMcp.Server.Steps
open LldbDebugMcp.Server.Lldb

variable {s s' : ToolServer lldb} {a : System.Action lldb} {c t : Nat} {k k' : Connection} {f : Fut}

/-- A call that ended is gone, and the others stay. -/
theorem calls_of_ended (ended : k.cancel t = some k' ∨ ∃ reply, k.finish t = some (reply, k')) :
    k'.calls = Function.update k.calls t none := by
  rcases ended with dropped | ⟨reply, finished⟩
  · obtain ⟨f, -, -, rfl⟩ := cancel_eq dropped
    exact congrArg (Function.update · t none) (pollStep_dropFut k f).calls
  · obtain ⟨f, -, -, rfl⟩ := finish_eq finished
    rfl

/-- The body of a resume. -/
theorem program_resumed (r : Resume) (threadId : Int) (gran : Option Granularity) :
    ∃ request, (r.call threadId gran).program = resumeProgram request ∧
      request.command ∈ Link.resumeCommands := by
  cases r with
  | cont =>
    have known : "continue" ∈ Link.resumeCommands := by decide
    exact ⟨_, program_cont threadId, known⟩
  | step kind => exact program_step kind threadId gran

/-- The move of a connection that a step of the server makes. -/
inductive Drives (c : Nat) : System.Action lldb → Backend.Adapter.Action → Prop where
  | act (act : Backend.Adapter.Act) : Drives c (.conn c act) (.act act)
  | pull (which : Backend.Adapter.Pull) : Drives c (.pump c which) (.pull which)
  | start (t : Nat) (choice : Choice lldb) (call : Call) :
      Drives c (.task t choice) (.start t call.program)
  | cancel (t : Nat) (choice : Choice lldb) : Drives c (.task t choice) (.cancel t)
  | finish (t : Nat) (choice : Choice lldb) : Drives c (.task t choice) (.finish t)

/-- A call ends by a step of its own task. -/
theorem Drives.ends {act : Backend.Adapter.Action} (drives : Drives c a act)
    (ends : act = .cancel t ∨ act = .finish t) : ∃ choice, a = .task t choice := by
  cases drives with
  | act | pull | start => rcases ends with h | h <;> cases h
  | cancel t' choice =>
    rcases ends with h | h
    · cases h
      exact ⟨choice, rfl⟩
    · cases h
  | finish t' choice =>
    rcases ends with h | h
    · cases h
    · cases h
      exact ⟨choice, rfl⟩

/-- A connection stays, and moves as the step drives it. -/
theorem conn_driven (reach : Reach ToolServer.step ToolServer.new s) (taken : s.step a = some s')
    (here : s.conns c = some k) : ∃ k', s'.conns c = some k' ∧
      (k' = k ∨ ∃ act, Drives c a act ∧ Backend.Steps.Moves k act k') := by
  have stays : s'.conns c = some k → ∃ k', s'.conns c = some k' ∧
      (k' = k ∨ ∃ act, Drives c a act ∧ Backend.Steps.Moves k act k') :=
    fun there => ⟨k, there, .inl rfl⟩
  have moved : ∀ {b : Nat} {k₀ k₁ : Connection} (act : Backend.Adapter.Action),
      s.conns b = some k₀ → k₀.step act = some k₁ → Drives b a act →
      s'.conns = Function.update s.conns b (some k₁) → ∃ k', s'.conns c = some k' ∧
        (k' = k ∨ ∃ act, Drives c a act ∧ Backend.Steps.Moves k act k') := by
    intro b k₀ k₁ act there acted drives conns
    by_cases same : c = b
    · subst same
      obtain rfl := Option.some.inj (here.symm.trans there)
      exact ⟨k₁, by rw [conns, Function.update_self],
        .inr ⟨act, drives, Backend.Steps.moves_of_step acted⟩⟩
    · exact stays (by rw [conns, Function.update_of_ne same, here])
  cases moves_of_step taken with
  | call | cancelToken | bookkeeping => exact stays here
  | @conn b act k₀ k₁ there acted => exact moved (.act act) there acted (.act act) rfl
  | @pump b which g k₀ k₁ event _ there pulled =>
    exact moved (.pull which) there (congrArg (Option.map Prod.snd) pulled) (.pull which) rfl
  | @task t choice pc pc' conn at_ move =>
    rcases move.call_cases with ⟨rfl, -⟩ | ⟨plan, conf, rfl, rfl, rfl⟩ |
      ⟨b, k₀, k₁, op, there, started, rfl, -⟩ | ⟨b, k₀, k₁, there, rfl, -, -, ended⟩
    · exact stays here
    · by_cases same : c = t
      · subst same
        obtain ⟨pc, at_', past⟩ := opened_of_conn reach here
        obtain rfl := Option.some.inj (at_.symm.trans at_')
        cases past
      · exact stays ((Function.update_of_ne same _ _).trans here)
    · exact moved (.start t op.program) there started (.start t choice op) rfl
    · rcases ended with dropped | ⟨reply, finished⟩
      · exact moved (.cancel t) there dropped (.cancel t choice) rfl
      · exact moved (.finish t) there (congrArg (Option.map Prod.snd) finished)
          (.finish t choice) rfl

/-- Where a resume goes from its call: on with the reply, or out when its token has fired. -/
theorem resuming_next {choice : Choice lldb} {args : ResumeArgs} {g : UInt64}
    (taken : s.step (.task t choice) = some s')
    (at_ : s.tasks t = some (.resume (.resuming args c g))) (here : s.conns c = some k)
    (call : k.calls t = some f) :
    (choice = .reply ∧ ∃ result, f.program = .done (.resume result) ∧
      s'.tasks t = some (.resume (ResumePc.handleStopResult args g result))) ∨
    (choice = .cancelled ∧ s'.tasks t = some (.done (.error args.resume.timeoutMessage))) := by
  obtain ⟨n, next, after⟩ := resume_next taken at_
  have there : s'.tasks t = some (.ofGoto .resume n.goto) := by
    rw [after]
    exact Function.update_self ..
  cases choice <;> simp only [ResumePc.next, reduceCtorEq] at next
  · obtain ⟨k₀, k', reply, goto, here', finished, hg, rfl⟩ := World.takeReply_eq next
    obtain rfl := Option.some.inj (here.symm.trans here')
    obtain ⟨f', call', is, -⟩ := finish_eq finished
    obtain rfl := Option.some.inj (call.symm.trans call')
    cases reply with
    | resume result =>
      obtain rfl := Option.some.inj hg
      exact .inl ⟨rfl, result, is, there⟩
    | launch | attach | pause | disconnect => cases hg
  · split at next
    · obtain ⟨k₀, k', here', dropped, rfl⟩ := World.dropCall_eq next
      exact .inr ⟨rfl, there⟩
    · cases next

private def Awaited (s : ToolServer lldb) : Prop :=
  ∀ c k t f, s.conns c = some k → k.calls t = some f →
    ∃ pc, s.tasks t = some pc ∧ pc.awaits t = some c

private theorem awaited_step (awaited : Awaited s) (taken : s.step a = some s') : Awaited s' := by
  intro c k' t f there call
  have stored : ∀ {b : Nat} {k₀ k₁ : Connection}, s.conns b = some k₀ →
      (∀ t f, k₁.calls t = some f → ∃ g, k₀.calls t = some g) →
      Function.update s.conns b (some k₁) c = some k' →
      ∃ pc, s.tasks t = some pc ∧ pc.awaits t = some c := by
    intro b k₀ k₁ here calls there
    by_cases same : c = b
    · subst same
      rw [Function.update_self] at there
      cases there
      obtain ⟨g, old⟩ := calls t f call
      exact awaited c k₀ t g here old
    · rw [Function.update_of_ne same] at there
      exact awaited c k' t f there call
  cases moves_of_step taken with
  | @call t' tool fresh =>
    obtain ⟨pc, at_, awaits⟩ := awaited c k' t f there call
    exact ⟨pc, task_stays taken at_ nofun, awaits⟩
  | cancelToken | bookkeeping => exact awaited c k' t f there call
  | conn here acted =>
    exact stored here (fun t f => calls_of_moves (Backend.Steps.moves_of_step
      (a := .act _) acted) nofun) there
  | @pump b which g k₀ k₁ event bound here pulled =>
    exact stored here (fun t f => calls_of_moves (Backend.Steps.moves_of_step
      (a := .pull which) (congrArg (Option.map Prod.snd) pulled)) nofun) there
  | @task t' choice pc pc' conn here move =>
    have others : (∃ pc, s.tasks t = some pc ∧ pc.awaits t = some c) →
        (t = t' → pc.awaits t ≠ some c) →
        ∃ pc₁, (s.goOn t' pc pc' conn).tasks t = some pc₁ ∧ pc₁.awaits t = some c := by
      rintro ⟨pc₀, at_, awaits⟩ not_mine
      by_cases same : t = t'
      · subst same
        obtain rfl := Option.some.inj (here.symm.trans at_)
        exact absurd awaits (not_mine rfl)
      · exact ⟨pc₀, (Function.update_of_ne same _ _).trans at_, awaits⟩
    have away : ∀ {b : Nat} {k₁ : Connection}, c ≠ b →
        Function.update s.conns b (some k₁) c = some k' →
        ∃ pc, s.tasks t = some pc ∧ pc.awaits t = some c := by
      intro b k₁ ne there
      rw [Function.update_of_ne ne] at there
      exact awaited c k' t f there call
    have own : ∀ {k₁ : Connection}, Function.update s.conns c (some k₁) c = some k' → k₁ = k' := by
      intro k₁ there
      rw [Function.update_self] at there
      exact Option.some.inj there
    rcases move.call_cases with ⟨rfl, idle, -⟩ | ⟨plan, conf, rfl, rfl, rfl⟩ |
      ⟨b, k₀, k₁, op, old, started, rfl, idle, begins⟩ |
      ⟨b, k₀, k₁, old, rfl, waited, -, ended⟩
    · refine others (awaited c k' t f there call) fun same => ?_
      rw [same, idle]
      exact nofun
    · by_cases same : c = t'
      · subst same
        obtain rfl := own there
        cases call
      · exact others (away same there) fun _ => nofun
    · by_cases same : c = b
      · subst same
        obtain rfl := own there
        by_cases mine : t = t'
        · subst mine
          exact ⟨pc', Function.update_self _ _ _, begins⟩
        · obtain ⟨-, rfl⟩ := start_eq started
          change Function.update k₀.calls t' _ t = _ at call
          rw [Function.update_of_ne mine] at call
          exact others (awaited c k₀ t f old call) fun h => absurd h mine
      · refine others (away same there) fun same => ?_
        rw [same, idle]
        exact nofun
    · by_cases same : c = b
      · subst same
        obtain rfl := own there
        rw [calls_of_ended ended] at call
        by_cases mine : t = t'
        · rw [mine, Function.update_self] at call
          cases call
        · rw [Function.update_of_ne mine] at call
          exact others (awaited c k₀ t f old call) fun h => absurd h mine
      · refine others (away same there) fun mine awaits => same ?_
        rw [mine, waited] at awaits
        exact (Option.some.inj awaits).symm

/-- Every call in flight on a connection is awaited by the task that began it. -/
theorem call_awaited (reach : Reach ToolServer.step ToolServer.new s) (here : s.conns c = some k)
    (call : k.calls t = some f) : ∃ pc, s.tasks t = some pc ∧ pc.awaits t = some c :=
  reach.keeps (I := Awaited) (fun _ _ _ awaited taken => awaited_step awaited taken)
    (fun _ _ _ _ h => by cases h) c k t f here call

end LldbDebugMcp.Server.Calls
