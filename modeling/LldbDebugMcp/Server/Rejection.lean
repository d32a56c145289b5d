/- module: LldbDebugMcp/Server/Rejection
   source: crates/lldb-backend/src/backend.rs, crates/mcp-tools/src/handlers/execution.rs
   digest: A continue or step that the adapter rejects: its error is never returned. -/

import LldbDebugMcp.Backend.ResumeCall
import LldbDebugMcp.Server.Calls

set_option autoImplicit false
set_option relaxedAutoImplicit false

namespace LldbDebugMcp.Server.Rejection

open LldbDebugMcp.Core.Types
open LldbDebugMcp.Client.Message
open LldbDebugMcp.Client.State
open LldbDebugMcp.Library.Channel
open LldbDebugMcp.Library.Transition
open LldbDebugMcp.Backend.Adapter (Connection Fut)
open LldbDebugMcp.Backend.Steps (Advances Ready Replied Served call_moves finish_eq start_eq)
open LldbDebugMcp.Backend.ResumeCall
open LldbDebugMcp.Server.Contract
open LldbDebugMcp.Server.Response (ToolOutcome)
open LldbDebugMcp.Server.Handler
open LldbDebugMcp.Server.Execution
open LldbDebugMcp.Server.System
open LldbDebugMcp.Server.Steps
open LldbDebugMcp.Server.Lldb
open LldbDebugMcp.Server.Calls

section

variable {c c' : Connection} {f f' : Fut} {choice : Backend.Adapter.Choice} {q : Int} {t : Nat}

/-- The future of a continue or step, at one of its operations or done. -/
inductive OnResume (f : Fut) : Prop where
  | registering {request : Request} (at_ : f.program = resumeProgram request) (ready : Ready f)
  | sending {request : Request} {w : Nat} (at_ : f.program = sendResume request)
      (waiter : f.waiter = some w)
  | awaiting (at_ : f.program = awaitStop) (ready : Ready f)
  | returned {r : Except BackendError StopOutcome} (at_ : f.program = .done (.resume r))
      (ready : Ready f)

theorem onResume_advances (on : OnResume f) (h : Advances c f choice c' f') : OnResume f' := by
  cases on with
  | registering at_ =>
    cases h with
    | registeredStop _ at_' =>
      cases at_.symm.trans at_'
      exact .sending rfl rfl
    | registered _ at_' | registeredAsync _ at_' | latched _ at_' | parked _ at_' | gotReply _ at_'
    | gotStop _ at_' | stderr _ at_' | tookChild _ at_' | killed _ at_' | reaped _ at_'
    | accepted _ at_' | acceptedAsync _ at_' | refused _ at_' | refusedAsync _ at_'
    | replied _ at_' | woken _ at_' => cases at_.symm.trans at_'
  | sending at_ waiter =>
    cases h with
    | registered | accepted => exact .sending at_ waiter
    | @refused _ _ _ message _ at_' =>
      cases at_.symm.trans at_'
      exact .returned rfl (.inr rfl)
    | @replied _ _ _ r _ at_' =>
      cases at_.symm.trans at_'
      rcases r with _ | e | reply
      · exact .returned rfl (.inr rfl)
      · exact .returned rfl (.inr rfl)
      · exact .awaiting rfl (.inr rfl)
    | registeredAsync _ at_' | latched _ at_' | parked _ at_' | registeredStop _ at_'
    | gotReply _ at_' | gotStop _ at_' | stderr _ at_' | tookChild _ at_' | killed _ at_'
    | reaped _ at_' | acceptedAsync _ at_' | refusedAsync _ at_' | woken _ at_' =>
      cases at_.symm.trans at_'
  | awaiting at_ =>
    cases h with
    | @gotStop _ _ r _ at_' =>
      cases at_.symm.trans at_'
      cases r with
      | none => exact .returned rfl (.inr rfl)
      | some outcome => exact .returned rfl (.inr rfl)
    | registered _ at_' | registeredAsync _ at_' | latched _ at_' | parked _ at_'
    | registeredStop _ at_' | gotReply _ at_' | stderr _ at_' | tookChild _ at_' | killed _ at_'
    | reaped _ at_' | accepted _ at_' | acceptedAsync _ at_' | refused _ at_' | refusedAsync _ at_'
    | replied _ at_' | woken _ at_' => cases at_.symm.trans at_'
  | returned at_ =>
    obtain ⟨i, next, at_'⟩ := h.at_op
    cases at_.symm.trans at_'

/-- A response has come for the request that a continue or step has sent. -/
inductive Answered (q : Int) (message : DapMessage) (c : Connection) (f : Fut) : Prop where
  | unread {request : Request} (at_ : f.program = sendResume request)
      (awaits : f.await = .awaiting q) (replied : Replied q (.sent (.ok message)) c.link.shared)
  | awaiting (at_ : f.program = awaitStop)
  | returned {outcome : StopOutcome} (at_ : f.program = .done (.resume (.ok outcome)))

private theorem answered_advances {message : DapMessage} (answered : Answered q message c f)
    (h : Advances c f choice c' f') : Answered q message c' f' := by
  cases answered with
  | @unread request at_ awaits replied =>
    cases h with
    | @replied _ next seq r awaiting at_' settled =>
      obtain rfl := Backend.Adapter.Await.awaiting.inj (awaits.symm.trans awaiting)
      rw [replied.reply] at settled
      obtain rfl := Option.some.inj settled
      cases at_.symm.trans at_'
      exact .awaiting rfl
    | registered ready | registeredAsync ready | latched ready | parked ready
    | registeredStop ready | gotReply ready | gotStop ready | stderr ready | tookChild ready
    | killed ready | reaped ready =>
      rcases ready with other | other <;> cases awaits.symm.trans other
    | accepted other | acceptedAsync other | refused other | refusedAsync other | woken other =>
      cases awaits.symm.trans other
  | awaiting at_ =>
    rcases h.program_cases with same | ⟨i, next, r, at_', eq, -⟩
    · exact .awaiting (same.trans at_)
    · cases at_.symm.trans at_'
      cases r with
      | none => exact @Answered.returned q message c' f' .terminated eq
      | some outcome => exact @Answered.returned q message c' f' outcome eq
  | returned at_ =>
    rcases h.program_cases with same | ⟨i, next, r, at_', -⟩
    · exact .returned (same.trans at_)
    · cases at_.symm.trans at_'

private theorem answered_shared {message : DapMessage} (answered : Answered q message c f)
    (moved : Replied q (.sent (.ok message)) c.link.shared →
      Replied q (.sent (.ok message)) c'.link.shared) : Answered q message c' f := by
  cases answered with
  | unread at_ awaits replied => exact .unread at_ awaits (moved replied)
  | awaiting at_ => exact .awaiting at_
  | returned at_ => exact .returned at_

/-- What was true of the future of a continue or step still is. -/
structure Later (c : Connection) (f : Fut) (c' : Connection) (f' : Fut) : Prop where
  onResume : OnResume f → OnResume f'
  answered : ∀ q message, Answered q message c f → Answered q message c' f'

/-- What is kept of a call while it is neither dropped nor finished. -/
private theorem later_moves {a : Backend.Adapter.Action} (moves : Backend.Steps.Moves c a c')
    (here : c.calls t = some f) (kept : a ≠ .cancel t) (unfinished : a ≠ .finish t) :
    ∃ f', c'.calls t = some f' ∧ Later c f c' f' := by
  rcases call_moves moves here kept unfinished with same | ⟨choice, k, f', advances, rfl⟩
  · exact ⟨f, same, id, fun q message answered => answered_shared answered fun replied =>
      replied.moves moves⟩
  · refine ⟨f', Function.update_self _ _ _, fun on => onResume_advances on advances, ?_⟩
    intro q message answered
    exact answered_shared (answered_advances answered advances) id

end

section

variable {s s' : ToolServer lldb} {a : System.Action lldb} {k : Connection} {f : Fut} {b t : Nat}

/-- A call that is awaited goes on while its task does not step. -/
private theorem call_step (reach : Reach ToolServer.step ToolServer.new s)
    (taken : s.step a = some s')
    (here : s.conns b = some k) (call : k.calls t = some f)
    (other : ∀ choice, a ≠ .task t choice) :
    ∃ k' f', s'.conns b = some k' ∧ k'.calls t = some f' ∧ Later k f k' f' := by
  obtain ⟨k', there, same | ⟨act, drives, moves⟩⟩ := conn_driven reach taken here
  · exact ⟨k', f, there, same ▸ call, id, fun _ _ => same ▸ id⟩
  · have unended : ∀ h : act = .cancel t ∨ act = .finish t, False := fun h =>
      (drives.ends h).elim other
    obtain ⟨f', call', later⟩ :=
      later_moves moves call (fun h => unended (.inl h)) fun h => unended (.inr h)
    exact ⟨k', f', there, call', later⟩

/-- The call that a resume awaits. -/
def Carries (s : ToolServer lldb) (t b : Nat) : Prop :=
  ∃ k f, s.conns b = some k ∧ k.calls t = some f ∧ OnResume f

/-- A resume awaits its call once it has begun it. -/
private theorem enters_resuming {S : Seam} {w : World S} {token : Bool} {args : ResumeArgs}
    {g : UInt64} {p : ResumePc} {conn : Option (Nat × S.Conn)}
    (move : p.Moves w t token (.at (.resuming args b g)) conn) :
    ∃ threadId k k', p = .setRunning args threadId b g ∧ w.conns b = some k ∧
      S.start k t (args.resume.call threadId args.granularity) = some k' ∧
      conn = some (b, k') := by
  generalize goto : Goto.at (ResumePc.resuming args b g) = dest at move
  cases move with
  | setRunning here started =>
    cases goto
    exact ⟨_, _, _, rfl, here, started, rfl⟩
  | @replied _ _ _ _ _ result =>
    rcases result with e | (info | code | _) <;> cases goto
  | _ => cases goto

private theorem carries_step (reach : Reach ToolServer.step ToolServer.new s)
    (carries : ∀ t args b g, s.tasks t = some (.resume (.resuming args b g)) → Carries s t b)
    (taken : s.step a = some s') (t : Nat) (args : ResumeArgs) (b : Nat) (g : UInt64)
    (at_ : s'.tasks t = some (.resume (.resuming args b g))) : Carries s' t b := by
  by_cases mine : ∃ choice, a = .task t choice
  · obtain ⟨choice, rfl⟩ := mine
    cases moves_of_step taken with
    | task _ move =>
      rw [goOn_tasks, Function.update_self] at at_
      obtain rfl := Option.some.inj at_
      obtain ⟨p, rfl, begins⟩ := move.of_resume
      obtain ⟨threadId, k, k', rfl, here, started, rfl⟩ := enters_resuming begins
      obtain ⟨-, rfl⟩ := start_eq started
      obtain ⟨request, program, -⟩ := program_resumed args.resume threadId args.granularity
      exact ⟨_, _, Function.update_self _ _ _, Function.update_self _ _ _,
        .registering program (.inl rfl)⟩
  · have other : ∀ choice, a ≠ .task t choice := fun choice is => mine ⟨choice, is⟩
    rcases tasks_cases taken at_ with old | ⟨tool, -, entry⟩ | ⟨choice, -, -, is, -⟩
    · obtain ⟨k, f, here, call, on⟩ := carries t args b g old
      obtain ⟨k', f', here', call', later⟩ := call_step reach taken here call other
      exact ⟨k', f', here', call', later.onResume on⟩
    · cases tool <;> cases entry
    · exact absurd is (other choice)

theorem carries_reach (reach : Reach ToolServer.step ToolServer.new s) {args : ResumeArgs}
    {g : UInt64}
    (at_ : s.tasks t = some (.resume (.resuming args b g))) : Carries s t b := by
  have both : Reach ToolServer.step ToolServer.new s ∧
      ∀ t args b g, s.tasks t = some (.resume (.resuming args b g)) → Carries s t b := by
    refine reach.keeps (I := fun s => Reach ToolServer.step ToolServer.new s ∧
      ∀ t args b g, s.tasks t = some (.resume (.resuming args b g)) → Carries s t b) ?_
      ⟨.start _, fun _ _ _ _ h => by cases h⟩
    rintro s a s' ⟨reach, carries⟩ taken
    exact ⟨reach.next taken, carries_step reach carries taken⟩
  exact both.2 t args b g at_

/-- The points of a resume that has an outcome. -/
def returning : ResumePc → Bool
  | .applyStopped .. | .cacheStopped .. | .drainStopped .. | .applyExited .. | .drainExited ..
  | .applyTerminated _ => true
  | _ => false

/-- Where a resume can be once a response has come for its request: it goes by outcomes of its
stop waiter alone, and has no error to return but that its token has fired. -/
inductive Deaf (q : Int) (message : DapMessage) (t : Nat) (args : ResumeArgs) (b : Nat)
    (s : ToolServer lldb) : Prop where
  | awaits {g : UInt64} {k : Connection} {f : Fut}
      (at_ : s.tasks t = some (.resume (.resuming args b g))) (here : s.conns b = some k)
      (call : k.calls t = some f) (answered : Answered q message k f)
  | returns {p : ResumePc} (at_ : s.tasks t = some (.resume p)) (past : returning p = true)
  | done {outcome : ToolOutcome} (at_ : s.tasks t = some (.done outcome))
      (only : ∀ e, outcome = .error e → e = args.resume.timeoutMessage)

/-- A resume that has an outcome returns no error. -/
private theorem returning_step {p : ResumePc} {choice : Choice lldb} {n : Next lldb ResumePc}
    (past : returning p = true) (next : p.next s.toWorld t (s.tokens t) choice = some n) :
    (∃ p', n.goto = .at p' ∧ returning p' = true) ∨
      ∃ outcome, n.goto = .done outcome ∧ ∀ e, outcome ≠ .error e := by
  cases p with
  | applyStopped g info =>
    cases choice <;> simp only [ResumePc.next, reduceCtorEq] at next
    split at next <;> obtain rfl := Option.some.inj next <;> exact .inl ⟨_, rfl, rfl⟩
  | cacheStopped g info | applyExited g code =>
    cases choice <;> simp only [ResumePc.next, reduceCtorEq] at next
    obtain rfl := Option.some.inj next
    exact .inl ⟨_, rfl, rfl⟩
  | drainStopped | drainExited | applyTerminated =>
    cases choice <;> simp only [ResumePc.next, reduceCtorEq] at next
    obtain rfl := Option.some.inj next
    exact .inr ⟨_, rfl, fun e h => by cases h⟩
  | _ => cases past

private theorem deaf_task {q : Int} {message : DapMessage} {args : ResumeArgs}
    {choice : Choice lldb} (deaf : Deaf q message t args b s)
    (taken : s.step (.task t choice) = some s') : Deaf q message t args b s' := by
  cases deaf with
  | @awaits g k f at_ here call answered =>
    rcases resuming_next taken at_ here call with ⟨-, result, is, there⟩ | ⟨-, there⟩
    · cases answered with
      | unread at_' => cases at_'.symm.trans is
      | awaiting at_' => cases at_'.symm.trans is
      | @returned outcome at_' =>
        cases at_'.symm.trans is
        exact .returns there (by cases outcome <;> rfl)
    · exact .done there fun e is => (ToolOutcome.error.inj is).symm
  | returns at_ past =>
    obtain ⟨n, next, after⟩ := resume_next taken at_
    have there : s'.tasks t = some (.ofGoto .resume n.goto) := by
      rw [after]
      exact Function.update_self ..
    rcases returning_step past next with ⟨p', goto, past'⟩ | ⟨outcome, goto, fine⟩
    · rw [goto] at there
      exact .returns there past'
    · rw [goto] at there
      exact .done there fun e is => absurd is (fine e)
  | done at_ =>
    obtain ⟨pc', conn, move, -⟩ := task_step taken at_
    cases move

private theorem deaf_step {q : Int} {message : DapMessage} {args : ResumeArgs}
    (reach : Reach ToolServer.step ToolServer.new s) (deaf : Deaf q message t args b s)
    (taken : s.step a = some s') : Deaf q message t args b s' := by
  by_cases mine : ∃ choice, a = .task t choice
  · obtain ⟨choice, rfl⟩ := mine
    exact deaf_task deaf taken
  · have other : ∀ choice, a ≠ .task t choice := fun choice is => mine ⟨choice, is⟩
    cases deaf with
    | awaits at_ here call answered =>
      obtain ⟨k', f', here', call', later⟩ := call_step reach taken here call other
      exact .awaits (task_stays taken at_ other) here' call' (later.answered _ _ answered)
    | returns at_ past => exact .returns (task_stays taken at_ other) past
    | done at_ only => exact .done (task_stays taken at_ other) only

theorem deaf_run {q : Int} {message : DapMessage} {args : ResumeArgs}
    {as : List (System.Action lldb)} (reach : Reach ToolServer.step ToolServer.new s)
    (deaf : Deaf q message t args b s) (run : Run ToolServer.step anyStep s as s') :
    Deaf q message t args b s' := by
  have both := run.keeps
    (I := fun s => Reach ToolServer.step ToolServer.new s ∧ Deaf q message t args b s)
    (fun _ _ _ both _ taken => ⟨both.1.next taken, deaf_step both.1 both.2 taken⟩) ⟨reach, deaf⟩
  exact both.2

/-- The stop waiter that a continue or step awaits though its request was rejected. -/
def parkedOn (s : ToolServer lldb) (t b : Nat) (q : Int) : Option Nat :=
  (s.conns b).bind fun k => (k.calls t).bind fun f =>
    match k.link.shared.replies q, f.program with
    | .sent (.ok (.response response)), .op .recvStop _ =>
      if response.success then none else f.waiter
    | _, _ => none

/-- The response is handed to the future that waits for it. -/
private theorem receive_replied {q : Int} {response : Response} (served : Served k)
    (asked : q ∈ k.link.shared.pending) (mine : response.requestSeq = q)
    (received : s.step (receive b (.response response)) = some s') (here : s.conns b = some k) :
    ∃ link, s' = { s with conns := Function.update s.conns b (some (k.setLink link)) } ∧
      Replied q (.sent (.ok (.response response))) link.shared := by
  obtain ⟨k₀, there, rest⟩ := Option.bind_eq_some_iff.mp received
  obtain rfl := Option.some.inj (here.symm.trans there)
  obtain ⟨k', acted, rfl⟩ := Option.map_eq_some_iff.mp rest
  obtain ⟨link, dispatched, rfl⟩ := Option.map_eq_some_iff.mp acted
  refine ⟨link, rfl, ?_⟩
  unfold Client.ReadLoop.Link.receive at dispatched
  split at dispatched
  · obtain rfl := Option.some.inj dispatched
    subst mine
    refine ⟨?_, ?_, ?_⟩ <;>
      simp only [Client.ReadLoop.Link.dispatch, Shared.dispatchResponse, asked, if_true]
    · exact fun h => (Finset.mem_erase.mp h).1 rfl
    · exact (served.sound.link.shared.pending_mem _ asked).2
    · exact Function.update_self _ _ _
  · cases dispatched

/-- The poll that reads a response goes on to the stop waiter. -/
private theorem poll_parks {q : Int} {message : DapMessage} {request : Request}
    (here : s.conns b = some k) (call : k.calls t = some f)
    (at_ : f.program = sendResume request) (waits : f.await = .awaiting q)
    (replied : Replied q (.sent (.ok message)) k.link.shared) :
    ∃ s'', s.step (poll b t) = some s'' ∧ s''.session = s.session ∧ s''.tasks = s.tasks ∧
      s''.conns b = some (k.setCall t (some (f.goOn awaitStop))) := by
  have advance : k.advance f .go = some (k, f.goOn awaitStop) := by
    simp only [Connection.advance, Connection.replied, waits, at_, sendResume, replied.reply,
      OneShot.poll, Option.map_some]
    rfl
  have polled : k.poll t .go = some (k.setCall t (some (f.goOn awaitStop))) := by
    simp only [Connection.poll, call, Option.bind_some, advance, Option.map_some]
  refine ⟨{ s with conns := Function.update s.conns b _ }, ?_, rfl, rfl,
    Function.update_self _ _ _⟩
  change (s.conns b).bind _ = _
  rw [here, Option.bind_some]
  exact congrArg (Option.map _) polled

/-- On an empty channel no poll of the future completes. -/
private theorem parked_waits {w : Nat} (here : s.conns b = some k) (call : k.calls t = some f)
    (at_ : f.program = awaitStop) (await : f.await = .running) (waiter : f.waiter = some w)
    (empty : k.link.shared.stopWaiter.chan w = .empty) : s.step (poll b t) = none := by
  have polled : k.poll t .go = none := by
    simp only [Connection.poll, call, Option.bind_some, Connection.advance, await,
      Connection.enter, at_, awaitStop, waiter, empty, OneShot.poll, Option.map_none]
  change (s.conns b).bind _ = _
  rw [here, Option.bind_some]
  exact congrArg (Option.map _) polled

/-- A resume whose request is rejected never returns an error of its own, and waits for a stop
instead. -/
theorem rejection_never_returned {args : ResumeArgs} {g : UInt64} {q : Int} {response : Response}
    (reach : Reach ToolServer.step ToolServer.new s)
    (at_ : s.tasks t = some (.resume (.resuming args b g))) (here : s.conns b = some k)
    (call : k.calls t = some f) (waits : f.await = .awaiting q)
    (asked : q ∈ k.link.shared.pending) (mine : response.requestSeq = q)
    (rejected : response.success = false)
    (received : s.step (receive b (.response response)) = some s') :
    (∀ as s'', Run ToolServer.step anyStep s' as s'' →
      (∀ args' g' e, s''.tasks t ≠ some (.resume (.revert args' g' e))) ∧
      ∀ e, s''.tasks t = some (.done (.error e)) → e = args.resume.timeoutMessage) ∧
    ∃ s'' w, s'.step (poll b t) = some s'' ∧ s''.session = s.session ∧
      s''.tasks t = some (.resume (.resuming args b g)) ∧ parkedOn s'' t b q = some w ∧
      (∀ k'', s''.conns b = some k'' → k''.link.shared.stopWaiter.chan w = .empty →
        s''.step (poll b t) = none) := by
  obtain ⟨link, rfl, replied⟩ := receive_replied (conn_served reach here) asked mine received here
  have here' : { s with conns := Function.update s.conns b (some (k.setLink link)) }.conns b =
      some (k.setLink link) := Function.update_self _ _ _
  have sending : ∃ request w, f.program = sendResume request ∧ f.waiter = some w := by
    obtain ⟨k₀, f₀, there, call₀, on⟩ := carries_reach reach at_
    obtain rfl := Option.some.inj (here.symm.trans there)
    obtain rfl := Option.some.inj (call.symm.trans call₀)
    cases on with
    | sending program waiter => exact ⟨_, _, program, waiter⟩
    | registering _ ready | awaiting _ ready | returned _ ready =>
      rcases ready with h | h <;> cases waits.symm.trans h
  obtain ⟨request, w, program, waiter⟩ := sending
  refine ⟨fun as s'' run => ?_, ?_⟩
  · have deaf := deaf_run (reach.next received)
      (.awaits at_ here' call (.unread program waits replied)) run
    refine ⟨fun args' g' e there => ?_, fun e there => ?_⟩
    · cases deaf with
      | awaits at_' | done at_' => cases there.symm.trans at_'
      | returns at_' past =>
        cases there.symm.trans at_'
        cases past
    · cases deaf with
      | awaits at_' | returns at_' => cases there.symm.trans at_'
      | done at_' only =>
        cases there.symm.trans at_'
        exact only e rfl
  · obtain ⟨s'', polled, session, tasks, parked⟩ := poll_parks (k := k.setLink link)
      here' call program waits replied
    refine ⟨s'', w, polled, session, (congrFun tasks t).trans at_, ?_, fun k'' there empty => ?_⟩
    · have read : link.shared.replies q = _ := replied.reply
      simp only [parkedOn, parked, Option.bind_some, Connection.setCall, Function.update_self,
        Connection.setLink, read, Fut.goOn, awaitStop, rejected, Bool.false_eq_true, if_false]
      exact waiter
    · obtain rfl := Option.some.inj (parked.symm.trans there)
      exact parked_waits parked (Function.update_self _ _ _) rfl rfl waiter empty

/-- A continue after a launch that stopped at the entry, up to the write of its request. -/
private def continueWritten : List (System.Action lldb) :=
  launchCall 0 true ++ handshake 0 true ++ launchStopped 0 ++
    [.call 1 (.resume ⟨.cont, .ok none, none⟩)] ++ proceed 1 5 ++ [poll 0 1] ++ write 0 1

private def rejection : Response :=
  ⟨0, "response", 5, false, "continue", "process is running", none⟩

private def asks (s : ToolServer lldb) (t b : Nat) (q : Int) : Bool :=
  match s.tasks t, s.conns b with
  | some (.resume (.resuming _ b' _)), some k =>
    b' == b && decide (q ∈ k.link.shared.pending) &&
      (k.calls t).any fun f => decide (f.await = .awaiting q)
  | _, _ => false

private theorem asks_eq {q : Int} (h : asks s t b q = true) :
    ∃ args g k f, s.tasks t = some (.resume (.resuming args b g)) ∧ s.conns b = some k ∧
      k.calls t = some f ∧ f.await = .awaiting q ∧ q ∈ k.link.shared.pending := by
  unfold asks at h
  split at h
  · rename_i args b' g k at_ here
    simp only [Bool.and_eq_true, beq_iff_eq, decide_eq_true_eq, Option.any_eq_true] at h
    obtain ⟨⟨rfl, asked⟩, f, call, waits⟩ := h
    exact ⟨args, g, k, f, at_, here, call, waits, asked⟩
  · cases h

theorem rejection_parks_continue :
    ∃ (s : ToolServer lldb) (w : Nat), Reach ToolServer.step ToolServer.new s ∧
      s.session.state = .running ∧ parkedOn s 1 0 5 = some w ∧ s.step (poll 0 1) = none := by
  have eval : ((exec ToolServer.step anyStep (ToolServer.new : ToolServer lldb)
      (continueWritten ++ [receive 0 (.response rejection), poll 0 1])).map fun s =>
        (s.session.state, parkedOn s 1 0 5, (s.step (poll 0 1)).isNone)) =
      some (.running, some 1, true) := by
    decide +kernel
  obtain ⟨s, there, eq⟩ := Option.map_eq_some_iff.mp eval
  simp only [Prod.mk.injEq, Option.isNone_iff_eq_none] at eq
  exact ⟨s, 1, reach_of_exec there, eq⟩

theorem rejection_never_returned_continue :
    ∃ (s : ToolServer lldb) (w : Nat) (args : ResumeArgs), Reach ToolServer.step ToolServer.new s ∧
      parkedOn s 1 0 5 = some w ∧
      ∀ as s' e, Run ToolServer.step anyStep s as s' → s'.tasks 1 = some (.done (.error e)) →
        e = args.resume.timeoutMessage := by
  have eval : ((exec ToolServer.step anyStep (ToolServer.new : ToolServer lldb)
      continueWritten).bind fun s =>
      (s.step (receive 0 (.response rejection))).map fun _ => asks s 1 0 5) = some true := by
    decide +kernel
  obtain ⟨s, written, rest⟩ := Option.bind_eq_some_iff.mp eval
  obtain ⟨s', received, is⟩ := Option.map_eq_some_iff.mp rest
  obtain ⟨args, g, k, f, at_, here, call, waits, asked⟩ := asks_eq is
  have reach := reach_of_exec written
  obtain ⟨never, s'', w, polled, -, -, parked, -⟩ :=
    rejection_never_returned reach at_ here call waits asked rfl rfl received
  refine ⟨s'', w, args, (reach.next received).next polled, parked, fun as s₃ e run there => ?_⟩
  exact (never _ s₃ (.cons trivial polled run)).2 e there

end

end LldbDebugMcp.Server.Rejection
