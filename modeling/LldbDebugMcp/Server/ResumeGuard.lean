/- module: LldbDebugMcp/Server/ResumeGuard
   source: crates/mcp-tools/src/handlers/execution.rs, crates/dap-client/src/stop_waiter.rs
   digest: The stopped guard of continue and step under concurrent calls. -/

import LldbDebugMcp.Backend.ResumeCall
import LldbDebugMcp.Server.Calls

set_option autoImplicit false
set_option relaxedAutoImplicit false

namespace LldbDebugMcp.Server.ResumeGuard

open LldbDebugMcp.Core.Types
open LldbDebugMcp.Session.Manager
open LldbDebugMcp.Session.Operation
open LldbDebugMcp.Library.Channel
open LldbDebugMcp.Library.Transition
open LldbDebugMcp.Backend.Adapter (Connection Fut)
open LldbDebugMcp.Backend.Steps (Served finish_eq start_eq cancel_eq)
open LldbDebugMcp.Backend.ResumeCall
open LldbDebugMcp.Server.Contract
open LldbDebugMcp.Server.Handler
open LldbDebugMcp.Server.Execution
open LldbDebugMcp.Server.System
open LldbDebugMcp.Server.Steps
open LldbDebugMcp.Server.Lldb
open LldbDebugMcp.Server.Calls

/-- Past the guard, and short of the write of the state running. -/
def claims : ResumePc → Bool
  | .resolveThread _ | .currentBackend .. | .snapshot .. | .setRunning .. => true
  | _ => false

/-- In flight: past the guard, and short of the write that ends the resume. -/
def inFlight : ResumePc → Bool
  | .guardStopped _ | .cacheStopped .. | .drainStopped .. | .drainExited .. => false
  | _ => true

section

variable {S : Seam} {s s' : ToolServer S} {a : Action S} {t : Nat}

/-- A resume gets past the stopped guard in this step. -/
def Admits (s : ToolServer S) : Action S → Prop
  | .task t _ =>
    s.session.state = .stopped ∧ ∃ args, s.tasks t = some (.resume (.guardStopped args))
  | _ => False

/-- Some resume is past the guard and has not set the state yet. -/
def Claiming (s : ToolServer S) : Prop := ∃ t p, s.tasks t = some (.resume p) ∧ claims p = true

/-- The guard lets a resume through only while no other is between its guard and its write. -/
def OneAtATime (s : ToolServer S) (a : Action S) : Prop := Admits s a → ¬ Claiming s

/-- Only continue and step are called. -/
def OnlyResumes (_ : ToolServer S) : Action S → Prop
  | .call _ (.resume _) => True
  | .call _ _ => False
  | _ => True

instance : (a : Action S) → Decidable (OnlyResumes s a)
  | .call _ (.resume _) => .isTrue trivial
  | .call _ (.start _) | .call _ (.disconnect _) | .call _ .pause => .isFalse id
  | .cancelToken _ | .task .. | .conn .. | .pump .. | .bookkeeping _ => .isTrue trivial

/-- Every handler is a resume, at most one of them is in flight, and the session is not stopped
while it is, unless it has yet to set the state. -/
structure Exclusive (s : ToolServer S) : Prop where
  resumes : ∀ t pc, s.tasks t = some pc → (∃ p, pc = .resume p) ∨ ∃ outcome, pc = .done outcome
  one : ∀ t t' p p', s.tasks t = some (.resume p) → inFlight p = true →
    s.tasks t' = some (.resume p') → inFlight p' = true → t = t'
  busy : ∀ t p, s.tasks t = some (.resume p) → inFlight p = true →
    claims p = true ∨ s.session.state ≠ .stopped

/-- A resume comes in flight only by getting past the guard. -/
private theorem enters {p p' : ResumePc} {conn : Option (Nat × S.Conn)}
    (move : p.Moves s.toWorld t (s.tokens t) (.at p') conn) (flies : inFlight p' = true) :
    inFlight p = true ∨ s.session.state = .stopped ∧ ∃ args, p = .guardStopped args ∧
      p' = .resolveThread args := by
  cases move with
  | admitted stopped => exact .inr ⟨stopped, _, rfl, rfl⟩
  | resolved | backend | snapshot | setRunning | replied => exact .inl rfl
  | applied | notApplied | cacheStopped | applyExited => cases flies

/-- A resume that stays in flight keeps the session away from stopped, once it has set it
running. -/
private theorem stays_busy {p p' : ResumePc} {conn : Option (Nat × S.Conn)}
    (move : p.Moves s.toWorld t (s.tokens t) (.at p') conn) (flies : inFlight p' = true)
    (busy : inFlight p = true → claims p = true ∨ s.session.state ≠ .stopped) :
    claims p' = true ∨ (applyOption s.session p.operation).state ≠ .stopped := by
  cases move with
  | admitted | resolved | backend | snapshot => exact .inl rfl
  | setRunning => exact .inr fun h => by cases h
  | replied =>
    rcases busy rfl with claims | running
    · cases claims
    · exact .inr running
  | applied | notApplied | cacheStopped | applyExited => cases flies

/-- The steps of a resume that is not in flight leave the state alone. -/
private theorem quiet_state {p : ResumePc} (quiet : inFlight p = false) :
    (applyOption s.session p.operation).state = s.session.state := by
  cases p with
  | guardStopped | cacheStopped | drainStopped | drainExited => rfl
  | _ => cases quiet

private theorem Exclusive.frame (inv : Exclusive s) (tasks : s'.tasks = s.tasks)
    (state : s'.session.state = .stopped → s.session.state = .stopped) : Exclusive s' where
  resumes := by
    rw [tasks]
    exact inv.resumes
  one := by
    rw [tasks]
    exact inv.one
  busy := by
    intro t p there flies
    rw [tasks] at there
    exact (inv.busy t p there flies).imp_right fun running stopped => running (state stopped)

private theorem Exclusive.arrive (inv : Exclusive s) (args : ResumeArgs) :
    Exclusive { s with tasks := Function.update s.tasks t (some (Tool.resume args).entry) } := by
  have old : ∀ t' p, Function.update s.tasks t (some (Tool.resume args).entry) t' =
      some (.resume p) → inFlight p = true → s.tasks t' = some (.resume p) := by
    intro t' p there flies
    rcases tasks_called there with old | ⟨rfl, eq⟩
    · exact old
    · cases eq
      cases flies
  refine ⟨fun t' pc there => ?_, fun t₁ t₂ p₁ p₂ h₁ b₁ h₂ b₂ => ?_, fun t' p h b => ?_⟩
  · rcases tasks_called there with old | ⟨-, rfl⟩
    · exact inv.resumes t' pc old
    · exact .inl ⟨_, rfl⟩
  · exact inv.one t₁ t₂ p₁ p₂ (old t₁ p₁ h₁ b₁) b₁ (old t₂ p₂ h₂ b₂) b₂
  · exact inv.busy t' p (old t' p h b) b

/-- A step of a resume. -/
private theorem Exclusive.task {choice : Choice S} {p : ResumePc} {goto : Goto ResumePc}
    {conn : Option (Nat × S.Conn)} (inv : Exclusive s) (here : s.tasks t = some (.resume p))
    (move : p.Moves s.toWorld t (s.tokens t) goto conn) (guarded : OneAtATime s (.task t choice)) :
    Exclusive (s.goOn t (.resume p) (.ofGoto .resume goto) conn) := by
  have split : ∀ t' p', (s.goOn t (.resume p) (.ofGoto .resume goto) conn).tasks t' =
      some (.resume p') → t' ≠ t ∧ s.tasks t' = some (.resume p') ∨ t' = t ∧ goto = .at p' := by
    intro t' p' there
    rcases tasks_goOn there with old | ⟨rfl, eq⟩
    · exact .inl old
    · exact .inr ⟨rfl, ofGoto_resume eq⟩
  -- No other resume is in flight when this one is, or comes in flight.
  have alone : ∀ p', goto = .at p' → inFlight p' = true → ∀ t' q, t' ≠ t →
      s.tasks t' = some (.resume q) → inFlight q = false := by
    rintro p' rfl flies t' q hne there
    rw [← Bool.not_eq_true]
    intro also
    rcases enters move flies with was | ⟨stopped, args, rfl, -⟩
    · exact hne (inv.one t' t q p there also here was)
    · rcases inv.busy t' q there also with claims | running
      · exact guarded ⟨stopped, args, here⟩ ⟨t', q, there, claims⟩
      · exact running stopped
  refine ⟨fun t' pc there => ?_, fun t₁ t₂ p₁ p₂ there₁ also₁ there₂ also₂ => ?_,
    fun t' p' there also => ?_⟩
  · rcases tasks_goOn there with ⟨-, old⟩ | ⟨-, rfl⟩
    · exact inv.resumes t' pc old
    · exact ofGoto_cases .resume goto
  · rcases split t₁ p₁ there₁ with ⟨ne₁, old₁⟩ | ⟨rfl, eq₁⟩ <;>
      rcases split t₂ p₂ there₂ with ⟨ne₂, old₂⟩ | ⟨rfl, eq₂⟩
    · exact inv.one t₁ t₂ p₁ p₂ old₁ also₁ old₂ also₂
    · rw [alone p₂ eq₂ also₂ t₁ p₁ ne₁ old₁] at also₁
      cases also₁
    · rw [alone p₁ eq₁ also₁ t₂ p₂ ne₂ old₂] at also₂
      cases also₂
    · rfl
  · rcases split t' p' there with ⟨ne, old⟩ | ⟨rfl, rfl⟩
    · rw [goOn_session]
      cases flies : inFlight p with
      | true => exact absurd (inv.one t' t p' p old also here flies) ne
      | false =>
        rw [show (Pc.resume p).operation = p.operation from rfl, quiet_state flies]
        exact inv.busy t' p' old also
    · exact stays_busy move also (inv.busy t' p here)

private theorem Exclusive.step (inv : Exclusive s) (guarded : OneAtATime s a)
    (only : OnlyResumes s a) (taken : s.step a = some s') : Exclusive s' := by
  cases moves_of_step taken with
  | @call t tool fresh =>
    cases tool with
    | resume args => exact inv.arrive args
    | start | disconnect | pause => exact absurd only id
  | @task t choice pc pc' conn here move =>
    cases move with
    | resume move => exact inv.task here move guarded
    | start | disconnect | pause =>
      rcases inv.resumes t _ here with ⟨p, h⟩ | ⟨outcome, h⟩ <;> cases h
  | cancelToken | conn => exact inv.frame rfl id
  | @pump c which g k k' event bound here pulled =>
    refine inv.frame rfl fun stopped => ?_
    change ((pumpOperation g event).apply s.session).state = .stopped at stopped
    rw [apply_state] at stopped
    cases event with
    | output category text => exact stopped
    | terminated code =>
      simp only [pumpOperation, SessionOp.target] at stopped
      split at stopped
      · cases stopped
      · exact stopped
  | bookkeeping op =>
    exact inv.frame rfl fun stopped =>
      (congrArg Core.state (bookkeeping_core s.session op)).symm.trans stopped

end

variable {s s' s₀ : ToolServer lldb} {a : System.Action lldb} {t c : Nat}

/-- The backend that a resume has read from the slot. -/
def backendOf : ResumePc → Option Nat
  | .snapshot _ _ b | .setRunning _ _ b _ | .resuming _ b _ => some b
  | _ => none

/-- The read loop of the backend in the slot has processed a terminated event, or lost the
connection. -/
def SessionEnded (s : ToolServer lldb) : Prop :=
  ∃ b k, s.backend = some b ∧ s.conns b = some k ∧ Ended k.link

/-- A session that only resumes act on: they use the backend in the slot, one call at a time,
and one that reports an end has heard of it. -/
structure Orderly (s : ToolServer lldb) : Prop where
  reach : Reach ToolServer.step ToolServer.new s
  exclusive : Exclusive s
  slot : ∀ t p b, s.tasks t = some (.resume p) → backendOf p = some b → s.backend = some b
  solo : ∀ c k, s.conns c = some k → Solo k
  ended : ∀ t g, s.tasks t = some (.resume (.applyTerminated g)) → SessionEnded s

instance (l : Client.ReadLoop.Link) : Decidable (Ended l) :=
  inferInstanceAs (Decidable (_ ∨ _))

private theorem slot_stays (inv : Exclusive s) (taken : s.step a = some s') :
    s'.backend = s.backend := by
  cases moves_of_step taken with
  | @task t choice pc pc' conn here move =>
    rcases inv.resumes t pc here with ⟨p, rfl⟩ | ⟨outcome, rfl⟩ <;> rfl
  | call | cancelToken | conn | pump | bookkeeping => rfl

private theorem ended_step (reach : Reach ToolServer.step ToolServer.new s) (inv : Exclusive s)
    (taken : s.step a = some s') (ended : SessionEnded s) : SessionEnded s' := by
  obtain ⟨b, k, slot, here, ended⟩ := ended
  obtain ⟨k', there, moved⟩ := conn_step reach taken here
  refine ⟨b, k', (slot_stays inv taken).trans slot, there, ?_⟩
  rcases moves_of_connMoves moved with rfl | ⟨a, -, step⟩
  · exact ended
  · exact ended_moves (Served.honest (conn_served reach here)) ended
      (Backend.Steps.moves_of_step step)

/-- No call is in flight where a resume is about to begin its own. -/
private theorem idle_of_starting {args : ResumeArgs} {threadId : Int} {b : Nat} {g : UInt64}
    {k : Connection} (orderly : Orderly s)
    (here : s.tasks t = some (.resume (.setRunning args threadId b g)))
    (conn : s.conns b = some k) : ∀ t', k.calls t' = none := by
  intro t'
  rw [Option.eq_none_iff_forall_ne_some]
  intro f call
  obtain ⟨pc, there, awaits⟩ := call_awaited orderly.reach conn call
  rcases orderly.exclusive.resumes t' pc there with ⟨p, rfl⟩ | ⟨outcome, rfl⟩
  · cases p with
    | resuming args' b' g' =>
      obtain rfl := orderly.exclusive.one t t' _ _ here rfl there rfl
      cases here.symm.trans there
    | _ => cases awaits
  · cases awaits

private theorem solo_step (orderly : Orderly s) (taken : s.step a = some s') {k' : Connection}
    (there : s'.conns c = some k') : Solo k' := by
  have stored : ∀ {b : Nat} {k₀ k₁ : Connection}, s.conns b = some k₀ → Solo k₁ →
      Function.update s.conns b (some k₁) c = some k' → Solo k' := by
    intro b k₀ k₁ _ solo there
    by_cases same : c = b
    · subst same
      rw [Function.update_self] at there
      exact Option.some.inj there ▸ solo
    · rw [Function.update_of_ne same] at there
      exact orderly.solo c k' there
  have moved : ∀ {b : Nat} {k₀ k₁ : Connection} (act : Backend.Adapter.Action),
      s.conns b = some k₀ → k₀.step act = some k₁ → (∀ t p, act ≠ .start t p) → Solo k₁ :=
    fun _ here step beginsNone => (orderly.solo _ _ here).moves
      (Served.honest (conn_served orderly.reach here)) (Backend.Steps.moves_of_step step) beginsNone
  cases moves_of_step taken with
  | call | cancelToken | bookkeeping => exact orderly.solo c k' there
  | @conn b act k₀ k₁ here acted =>
    exact stored here (moved (.act act) here acted nofun) there
  | @pump b which g k₀ k₁ event bound here pulled =>
    exact stored here
      (moved (.pull which) here (congrArg (Option.map Prod.snd) pulled) nofun) there
  | @task t choice pc pc' conn here move =>
    cases move with
    | resume move =>
      cases move with
      | setRunning old started =>
        obtain ⟨request, program, -⟩ := program_resumed _ _ _
        obtain ⟨-, rfl⟩ := start_eq started
        rw [program] at there
        exact stored old (solo_start (idle_of_starting orderly here old)) there
      | replied old finished =>
        exact stored old (moved (.finish t) old
          (congrArg (Option.map Prod.snd) finished) nofun) there
      | cancelled _ old dropped =>
        exact stored old (moved (.cancel t) old dropped nofun) there
      | _ => exact orderly.solo c k' there
    | start | disconnect | pause =>
      rcases orderly.exclusive.resumes t _ here with ⟨p, h⟩ | ⟨outcome, h⟩ <;> cases h

private theorem slot_moves {S : Seam} {s : ToolServer S} {t b : Nat} {p p' : ResumePc}
    {conn : Option (Nat × S.Conn)} (move : p.Moves s.toWorld t (s.tokens t) (.at p') conn)
    (uses : backendOf p' = some b) : backendOf p = some b ∨ s.backend = some b := by
  cases move with
  | backend slot => exact .inr (slot.trans uses)
  | snapshot | setRunning => exact .inl uses
  | @replied _ _ _ _ _ result => rcases result with e | (info | code | _) <;> cases uses
  | admitted | resolved | applied | notApplied | cacheStopped | applyExited => cases uses

private theorem slot_step (orderly : Orderly s) (taken : s.step a = some s') {p : ResumePc}
    {b : Nat} (there : s'.tasks t = some (.resume p)) (uses : backendOf p = some b) :
    s'.backend = some b := by
  rw [slot_stays orderly.exclusive taken]
  rcases tasks_cases taken there with old | ⟨tool, -, eq⟩ | ⟨choice, pc, conn, -, here, move, -⟩
  · exact orderly.slot t p b old uses
  · cases tool <;> cases eq
    cases uses
  · obtain ⟨p₀, rfl, moved⟩ := move.of_resume
    rcases slot_moves moved uses with old | slot
    · exact orderly.slot t p₀ b here old
    · exact slot

/-- A resume that comes to report the end of the session has heard of it. -/
private theorem heard_end {args : ResumeArgs} {b : Nat} {g g' : UInt64} {k k' : Connection}
    {result : Except BackendError StopOutcome} (orderly : Orderly s)
    (conn : s.conns b = some k) (finished : k.finish t = some (.resume result, k'))
    (reports : ResumePc.handleStopResult args g result = .applyTerminated g') : Ended k'.link := by
  obtain ⟨f, call, done, rfl⟩ := finish_eq finished
  have terminated : result = .ok .terminated := by
    rcases result with e | (info | code | _)
    · cases reports
    · cases reports
    · cases reports
    · rfl
  cases (orderly.solo b k conn).resuming t f call with
  | registering at_ | sending at_ | awaiting at_ => cases at_.symm.trans done
  | returned at_ waiter not_closed heard =>
    cases at_.symm.trans done
    exact heard terminated

private theorem reports_moves {S : Seam} {s : ToolServer S} {t : Nat} {p : ResumePc} {g : UInt64}
    {conn : Option (Nat × S.Conn)}
    (move : p.Moves s.toWorld t (s.tokens t) (.at (.applyTerminated g)) conn) :
    ∃ args b g' k k' result, p = .resuming args b g' ∧ conn = some (b, k') ∧
      s.conns b = some k ∧ S.finish k t = some (.resume result, k') ∧
      ResumePc.handleStopResult args g' result = .applyTerminated g := by
  generalize reports : Goto.at (ResumePc.applyTerminated g) = goto at move
  cases move with
  | replied here finished =>
    exact ⟨_, _, _, _, _, _, rfl, rfl, here, finished, (Goto.at.inj reports).symm⟩
  | _ => cases reports

private theorem ended_own (orderly : Orderly s) {choice : Choice lldb} {g : UInt64} {pc : Pc}
    {conn : Option (Nat × Connection)} (here : s.tasks t = some pc)
    (taken : s.step (.task t choice) = some s')
    (move : TaskMoves s t pc (.resume (.applyTerminated g)) conn)
    (after : s' = s.goOn t pc (.resume (.applyTerminated g)) conn) : SessionEnded s' := by
  obtain ⟨p, rfl, moved⟩ := move.of_resume
  obtain ⟨args, b, g', k, k', result, rfl, rfl, old, finished, reports⟩ := reports_moves moved
  have slot := orderly.slot t _ b here rfl
  have ended := heard_end orderly old finished reports
  refine ⟨b, k', (slot_stays orderly.exclusive taken).trans slot, ?_, ended⟩
  rw [after]
  exact Function.update_self _ _ _

private theorem Orderly.step (orderly : Orderly s) (guarded : OneAtATime s a)
    (only : OnlyResumes s a) (taken : s.step a = some s') : Orderly s' where
  reach := orderly.reach.next taken
  exclusive := orderly.exclusive.step guarded only taken
  slot _ _ _ there uses := slot_step orderly taken there uses
  solo _ _ there := solo_step orderly taken there
  ended t g there := by
    rcases tasks_cases taken there with
      old | ⟨tool, -, eq⟩ | ⟨choice, pc, conn, rfl, here, move, after⟩
    · exact ended_step orderly.reach orderly.exclusive taken (orderly.ended t g old)
    · cases tool <;> cases eq
    · exact ended_own orderly here taken move after

/-- A session at rest. -/
private theorem orderly_of_quiet (reach : Reach ToolServer.step ToolServer.new s)
    (quiet : Quiet s) :
    Orderly s := by
  have none : ∀ t p, s.tasks t ≠ some (.resume p) := by
    intro t p at_
    obtain ⟨outcome, h⟩ := quiet t _ at_
    cases h
  have idle : ∀ c k t f, s.conns c = some k → k.calls t ≠ some f := by
    intro c k t f here call
    obtain ⟨pc, at_, awaits⟩ := call_awaited reach here call
    obtain ⟨outcome, rfl⟩ := quiet t pc at_
    cases awaits
  exact {
    reach := reach
    exclusive := ⟨fun t pc at_ => .inr (quiet t pc at_), fun t _ p _ at_ => absurd at_ (none t p),
      fun t p at_ => absurd at_ (none t p)⟩
    slot := fun t p _ at_ => absurd at_ (none t p)
    solo := fun c k here => ⟨fun t _ f _ call => absurd call (idle c k t f here),
      fun t f call => absurd call (idle c k t f here)⟩
    ended := fun t _ at_ => absurd at_ (none t _) }

/-- When continue and step are called on a session at rest, and the guard lets one through
only while no other is between the guard and its write, one at most is in flight, the guard
lets none through meanwhile, no stop waiter is replaced under a call that holds it, and an
end of the session is reported only after the read loop has processed it. -/
theorem one_resume_in_flight {as : List (System.Action lldb)}
    (reach : Reach ToolServer.step ToolServer.new s₀) (quiet : Quiet s₀)
    (run : Run ToolServer.step (fun s a => OneAtATime s a ∧ OnlyResumes s a) s₀ as s) :
    (∀ t t' p p', s.tasks t = some (.resume p) → inFlight p = true →
      s.tasks t' = some (.resume p') → inFlight p' = true → t = t') ∧
    (∀ a t p, OneAtATime s a → Admits s a → s.tasks t = some (.resume p) → inFlight p = false) ∧
    (∀ c k t f w, s.conns c = some k → k.calls t = some f → f.waiter = some w →
      k.link.shared.stopWaiter.chan w ≠ .closed) ∧
    ∀ t g, s.tasks t = some (.resume (.applyTerminated g)) → SessionEnded s := by
  have orderly : Orderly s := run.keeps (I := Orderly)
    (fun _ _ _ orderly allowed taken => orderly.step allowed.1 allowed.2 taken)
    (orderly_of_quiet reach quiet)
  refine ⟨orderly.exclusive.one, fun a t p guarded admits at_ => ?_,
    fun c k t f w here call waiter => ?_, orderly.ended⟩
  · rw [← Bool.not_eq_true]
    intro flies
    rcases orderly.exclusive.busy t p at_ flies with claims | running
    · exact guarded admits ⟨t, p, at_, claims⟩
    · cases a with
      | task => exact running admits.1
      | _ => exact admits
  · cases (orderly.solo c k here).resuming t f call with
    | registering _ fresh => cases fresh.symm.trans waiter
    | sending _ mine open_ | awaiting _ mine open_ | returned _ mine open_ =>
      obtain rfl := Option.some.inj (mine.symm.trans waiter)
      exact open_

/-- A launch that has stopped at the entry. -/
def stoppedLaunch : List (System.Action lldb) :=
  launchCall 0 true ++ handshake 0 true ++ launchStopped 0

def contCall (t : Nat) : System.Action lldb := .call t (.resume ⟨.cont, .ok none, none⟩)

/-- Two continues read the state stopped, and the second registers its stop waiter after the
first has sent its request. -/
def twoContinues : List (System.Action lldb) :=
  [contCall 1, contCall 2] ++ proceed 1 1 ++ proceed 2 1 ++ proceed 1 4 ++ proceed 2 4 ++
    [poll 0 1] ++ write 0 1 ++ [poll 0 2]

/-- The request of the first is answered. -/
def firstReturns : List (System.Action lldb) :=
  [receive 0 (answer 5), poll 0 1, poll 0 1, .task 1 .reply]

def flying (s : ToolServer lldb) (t : Nat) : Bool :=
  (s.tasks t).any fun
    | .resume p => inFlight p
    | _ => false

private theorem flying_eq (h : flying s t = true) :
    ∃ p, s.tasks t = some (.resume p) ∧ inFlight p = true := by
  obtain ⟨pc, here, h⟩ := (Option.any_eq_true _ _).mp h
  cases pc with
  | resume p => exact ⟨p, here, h⟩
  | _ => cases h

/-- The stop waiter of the task's call was replaced. -/
def replaced (s : ToolServer lldb) (c t : Nat) : Bool :=
  (s.conns c).any fun k : Connection => (k.calls t).any fun f => f.waiter.any fun w =>
    k.link.shared.stopWaiter.chan w == .closed

private theorem replaced_eq (h : replaced s c t = true) :
    ∃ k f w, s.conns c = some k ∧ k.calls t = some f ∧ f.waiter = some w ∧
      k.link.shared.stopWaiter.chan w = .closed := by
  obtain ⟨k, here, h⟩ := (Option.any_eq_true _ _).mp h
  obtain ⟨f, call, h⟩ := (Option.any_eq_true _ _).mp h
  obtain ⟨w, waiter, closed⟩ := (Option.any_eq_true _ _).mp h
  exact ⟨k, f, w, here, call, waiter, beq_iff_eq.mp closed⟩

def reportsEnd (s : ToolServer lldb) (t : Nat) : Bool :=
  (s.tasks t).any fun
    | .resume (.applyTerminated _) => true
    | _ => false

private theorem reportsEnd_eq (h : reportsEnd s t = true) :
    ∃ g, s.tasks t = some (.resume (.applyTerminated g)) := by
  obtain ⟨pc, here, h⟩ := (Option.any_eq_true _ _).mp h
  split at h
  · exact ⟨_, here⟩
  · cases h

def live (s : ToolServer lldb) : Bool :=
  (s.backend.bind s.conns).any fun k : Connection => !decide (Ended k.link)

private theorem not_ended_of_live (h : live s = true) : ¬ SessionEnded s := by
  rintro ⟨b, k, slot, here, ended⟩
  simp [live, slot, here, ended] at h

private theorem two_in_flight :
    ∃ (s₀ s₁ s₂ : ToolServer lldb), Reach ToolServer.step ToolServer.new s₀ ∧ Quiet s₀ ∧
      Run ToolServer.step OnlyResumes s₀ twoContinues s₁ ∧
      Run ToolServer.step OnlyResumes s₁ firstReturns s₂ ∧
      ((flying s₁ 1 = true ∧ flying s₁ 2 = true) ∧ replaced s₁ 0 1 = true) ∧
      reportsEnd s₂ 1 = true ∧ live s₂ = true := by
  have eval : ((exec ToolServer.step anyStep (ToolServer.new : ToolServer lldb)
      stoppedLaunch).bind fun s₀ =>
      (exec ToolServer.step OnlyResumes s₀ twoContinues).bind fun s₁ =>
        (exec ToolServer.step OnlyResumes s₁ firstReturns).map fun s₂ =>
          (returned s₀ 0, (flying s₁ 1 && flying s₁ 2 && replaced s₁ 0 1),
            (reportsEnd s₂ 1 && live s₂))) = some (true, true, true) := by
    decide +kernel
  obtain ⟨s₀, first, rest⟩ := Option.bind_eq_some_iff.mp eval
  obtain ⟨s₁, second, rest⟩ := Option.bind_eq_some_iff.mp rest
  obtain ⟨s₂, third, eq⟩ := Option.map_eq_some_iff.mp rest
  simp only [Prod.mk.injEq, Bool.and_eq_true] at eq
  obtain ⟨done, both, ended⟩ := eq
  obtain ⟨outcome, done⟩ := returned_eq done
  exact ⟨s₀, s₁, s₂, reach_of_exec first,
    quiet_of_onlyFirst (run_of_exec first) (by decide) done, run_of_exec second,
    run_of_exec third, both, ended⟩

/-- Two continues are in flight together, the second replaces the stop waiter of the first, and
the first reports the end of a session that goes on. -/
theorem resumes_overlap :
    (¬ ∀ (s₀ s : ToolServer lldb) (as : List (System.Action lldb)),
      Reach ToolServer.step ToolServer.new s₀ →
      Quiet s₀ → Run ToolServer.step OnlyResumes s₀ as s →
      ∀ t t' p p', s.tasks t = some (.resume p) → inFlight p = true →
        s.tasks t' = some (.resume p') → inFlight p' = true → t = t') ∧
    (¬ ∀ (s₀ s : ToolServer lldb) (as : List (System.Action lldb)),
      Reach ToolServer.step ToolServer.new s₀ →
      Quiet s₀ → Run ToolServer.step OnlyResumes s₀ as s →
      ∀ c k t f w, s.conns c = some k → k.calls t = some f → f.waiter = some w →
        k.link.shared.stopWaiter.chan w ≠ .closed) ∧
    ¬ ∀ (s₀ s : ToolServer lldb) (as : List (System.Action lldb)),
      Reach ToolServer.step ToolServer.new s₀ →
      Quiet s₀ → Run ToolServer.step OnlyResumes s₀ as s →
      ∀ t g, s.tasks t = some (.resume (.applyTerminated g)) → SessionEnded s := by
  obtain ⟨s₀, s₁, s₂, reach, quiet, first, second, ⟨⟨one, two⟩, closed⟩, reports, alive⟩ :=
    two_in_flight
  refine ⟨fun alone => ?_, fun open_ => ?_, fun honest => ?_⟩
  · obtain ⟨p, here, flies⟩ := flying_eq one
    obtain ⟨p', there, flies'⟩ := flying_eq two
    cases alone s₀ s₁ _ reach quiet first 1 2 p p' here flies there flies'
  · obtain ⟨k, f, w, here, call, waiter, closed⟩ := replaced_eq closed
    exact open_ s₀ s₁ _ reach quiet first 0 k 1 f w here call waiter closed
  · obtain ⟨g, here⟩ := reportsEnd_eq reports
    exact not_ended_of_live alive (honest s₀ s₂ _ reach quiet (first.append second) 1 g here)

/-- A continue, up to its report of the end of the session, and another that comes to the guard
once the state is running. -/
def turnedAway : List (System.Action lldb) :=
  [contCall 1, contCall 2] ++ proceed 1 5 ++ proceed 2 1 ++ [poll 0 1] ++ write 0 1 ++
    [receive 0 (answer 5), poll 0 1, receive 0 terminatedEvent, .conn 0 .proceed, poll 0 1,
      .task 1 .reply]

/-- The task is a resume at its guard. -/
def atGuard (s : ToolServer lldb) (t : Nat) : Bool :=
  (s.tasks t).any fun
    | .resume (.guardStopped _) => true
    | _ => false

/-- The task is a resume between the guard and its write of the state. -/
def claiming (s : ToolServer lldb) (t : Nat) : Bool :=
  (s.tasks t).any fun
    | .resume p => claims p
    | _ => false

/-- Whether a step meets the proviso, when only these tasks are there. -/
def alone (ts : List Nat) (s : ToolServer lldb) : System.Action lldb → Bool
  | .task t _ => s.session.state != .stopped || !atGuard s t || ts.all fun t' => !claiming s t'
  | _ => true

private theorem oneAtATime_of_alone {ts : List Nat} (among : Among ts s)
    (checked : alone ts s a = true) : OneAtATime s a := by
  rintro admits ⟨t', p, there, claims⟩
  cases a with
  | task t choice =>
    obtain ⟨stopped, args, here⟩ := admits
    have guard : atGuard s t = true := by
      rw [atGuard, here]
      rfl
    simp only [alone, stopped, guard] at checked
    have mem : t' ∈ ts := by
      by_contra other
      cases (among t' other).symm.trans there
    have claim : claiming s t' = true := by
      rw [claiming, there]
      exact claims
    have none := List.all_eq_true.mp checked t' mem
    rw [claim] at none
    cases none
  | _ => exact admits

/-- The task has returned an error. -/
def rejected (s : ToolServer lldb) (t : Nat) : Bool :=
  (s.tasks t).any fun
    | .done (.error _) => true
    | _ => false

private theorem rejected_eq (h : rejected s t = true) :
    ∃ e, s.tasks t = some (.done (.error e)) := by
  obtain ⟨pc, here, h⟩ := (Option.any_eq_true _ _).mp h
  split at h
  · exact ⟨_, here⟩
  · cases h

theorem one_resume_in_flight_turnedAway :
    ∃ (s : ToolServer lldb) (g : UInt64), (∃ e, s.tasks 2 = some (.done (.error e))) ∧
      s.tasks 1 = some (.resume (.applyTerminated g)) ∧
      (∀ t p, s.tasks t = some (.resume p) → inFlight p = true → t = 1) ∧ SessionEnded s := by
  have eval : ((exec ToolServer.step anyStep (ToolServer.new : ToolServer lldb)
      stoppedLaunch).bind fun s₀ =>
      (exec ToolServer.step (fun s a => OnlyResumes s a ∧ alone [0, 1, 2] s a = true) s₀
        turnedAway).map
        fun s => (returned s₀ 0, rejected s 2, reportsEnd s 1)) = some (true, true, true) := by
    decide +kernel
  obtain ⟨s₀, first, rest⟩ := Option.bind_eq_some_iff.mp eval
  obtain ⟨s, second, eq⟩ := Option.map_eq_some_iff.mp rest
  simp only [Prod.mk.injEq] at eq
  obtain ⟨done, away, reports⟩ := eq
  obtain ⟨outcome, done⟩ := returned_eq done
  obtain ⟨g, here⟩ := reportsEnd_eq reports
  have quiet := quiet_of_onlyFirst (run_of_exec first) (by decide) done
  have among : Among [0, 1, 2] s₀ := among_of_run (run_of_exec first) (by decide)
  have guarded :
      Run ToolServer.step (fun s a => OneAtATime s a ∧ OnlyResumes s a) s₀ turnedAway s :=
    among.run_of_checked (by decide)
      (fun s a among checked => ⟨oneAtATime_of_alone among checked.2, checked.1⟩) second
  obtain ⟨one, -, -, ended⟩ := one_resume_in_flight (reach_of_exec first) quiet guarded
  exact ⟨s, g, rejected_eq away, here, fun t p there flies => one t 1 p _ there flies here rfl,
    ended 1 g here⟩

end LldbDebugMcp.Server.ResumeGuard
