/- module: LldbDebugMcp/Server/Recorded
   source: crates/dap-client/src/read_loop.rs,
   crates/mcp-tools/src/handlers/{lifecycle,execution}.rs
   digest: When the session records the last stop that the read loop has processed. -/

import LldbDebugMcp.Backend.StopWaiter
import LldbDebugMcp.Server.Calls

set_option autoImplicit false
set_option relaxedAutoImplicit false

namespace LldbDebugMcp.Server.Recorded

open LldbDebugMcp.Core.Types
open LldbDebugMcp.Client.Message
open LldbDebugMcp.Session.Manager
open LldbDebugMcp.Session.Operation
open LldbDebugMcp.Library.Transition
open LldbDebugMcp.Backend.Operations
open LldbDebugMcp.Backend.Adapter (Connection Fut)
open LldbDebugMcp.Backend.Steps (Served finish_eq start_eq)
open LldbDebugMcp.Backend.ResumeCall
open LldbDebugMcp.Backend.StopWaiter
open LldbDebugMcp.Server.Contract
open LldbDebugMcp.Server.Handler
open LldbDebugMcp.Server.Lifecycle
open LldbDebugMcp.Server.Execution
open LldbDebugMcp.Server.System
open LldbDebugMcp.Server.Steps
open LldbDebugMcp.Server.Lldb
open LldbDebugMcp.Server.Calls

/-- The handler is going to change the backend slot. -/
def changesSlot : Pc → Bool
  | .start (.setConfiguring _) | .start (.flushPending _) | .start (.connecting _)
  | .start (.connectReset _) | .start (.connectResetOutput _) | .start (.connectClear _)
  | .start (.setBackend _) | .start (.cleanupClear _) => true
  | .disconnect (.currentBackend _) | .disconnect (.disconnecting _) | .disconnect .takeBackend =>
    true
  | _ => false

/-- The handler brings back a stop on the connection `c`: its call was handed it, or has
reported it. -/
def Brings (info : StopInfo) (g : UInt64) (c t : Nat) (k : Connection) : Pc → Prop
  | .start (.starting _) => t = c ∧ ∃ f, k.calls t = some f ∧ Handed k f info
  | .start (.setProgram _ (.stopped i)) | .start (.setPid _ (.stopped i) _)
  | .start (.readPid _ (.stopped i)) | .start (.setOutcome _ (.stopped i) _) => i = info
  | .resume (.resuming _ b g') => b = c ∧ g' = g ∧ ∃ f, k.calls t = some f ∧ Handed k f info
  | .resume (.applyStopped g' i) => g' = g ∧ i = info
  | _ => False

/-- The handler is to take back a resume on `c` that was not sent, or has failed. -/
def Reverts (c t : Nat) (k : Connection) : Pc → Prop
  | .resume (.resuming _ b _) => b = c ∧ ∃ f, k.calls t = some f ∧ Unsent f
  | .resume (.revert ..) => True
  | _ => False

/-- The handler has set the state stopped, and is to cache the stop. -/
def Records (info : StopInfo) : Pc → Prop
  | .start (.cacheStopped _ i _) | .resume (.cacheStopped _ i) => i = info
  | _ => False

/-- Going on as it does, the handler sets the state stopped. -/
def Stops (g : UInt64) (c t : Nat) (k : Connection) (pc : Pc) : Prop :=
  (∃ info, Brings info g c t k pc) ∨ Reverts c t k pc

/-- Going on as it does, the handler caches the stop. -/
def Caches (info : StopInfo) (g : UInt64) (c t : Nat) (k : Connection) (pc : Pc) : Prop :=
  Brings info g c t k pc ∨ Records info pc

/-- The call of the handler is the one that the next stop on the connection `c` is handed to. -/
def Listens (g : UInt64) (c t : Nat) (k : Connection) : Pc → Prop
  | .start (.starting _) => t = c ∧ ∃ f w, k.calls t = some f ∧ f.waiter = some w ∧
    k.link.shared.stopWaiter.slot = some w
  | .resume (.resuming _ b g') => b = c ∧ g' = g ∧ ∃ f w, k.calls t = some f ∧ f.waiter = some w ∧
    k.link.shared.stopWaiter.slot = some w
  | _ => False

variable {s s' : ToolServer lldb} {a : System.Action lldb} {c t : Nat} {k k' : Connection}
  {info : StopInfo} {g : UInt64} {pc pc' : Pc} {conn : Option (Nat × lldb.Conn)}

def SlotChanges (s : ToolServer lldb) : Prop := ∃ t pc, s.tasks t = some pc ∧ changesSlot pc = true

/-- A handler with the property is under way. -/
def Underway (P : UInt64 → Nat → Nat → Connection → Pc → Prop) (s : ToolServer lldb)
    (c : Nat) : Prop :=
  ∃ t pc k, s.tasks t = some pc ∧ s.conns c = some k ∧ P s.session.generation c t k pc

/-- The session write leaves another stop in the cache, or none. -/
def forgets (info : StopInfo) : SessionOp → Bool
  | .resetInner => true
  | .setLastStopped i => i ≠ info
  | _ => false

/-- The server once a session write is made. -/
def written (s : ToolServer lldb) (op : SessionOp) : ToolServer lldb :=
  { s with session := op.apply s.session }

/-- The step is the one with which a resume on the connection sets the state running. -/
def Resumes (s : ToolServer lldb) (c : Nat) : System.Action lldb → Prop
  | .task t _ => ∃ args threadId g, s.tasks t = some (.resume (.setRunning args threadId c g))
  | _ => False

/-- The step drops the call of a resume that is to make the state stopped again, or finds that
the call has failed although it was handed the stop. -/
def Abandons (s : ToolServer lldb) (c : Nat) (k : Connection) (info : StopInfo) :
    System.Action lldb → Prop
  | .task t .cancelled => ∃ args g, s.tasks t = some (.resume (.resuming args c g)) ∧
    Stops s.session.generation c t k (.resume (.resuming args c g))
  | .task t .reply => ∃ args g f e, s.tasks t = some (.resume (.resuming args c g)) ∧
    k.calls t = some f ∧ f.program = .done (.resume (.error e)) ∧ Handed k f info
  | _ => False

/-- After a stop of the debuggee in the slot, no resume forgets it, and a session write that is
not about this stop is made only while a handler is under way that writes it after that. -/
structure Minds (s : ToolServer lldb) (a : System.Action lldb) (c : Nat) (k : Connection)
    (info : StopInfo) : Prop where
  call : ¬ Abandons s c k info a
  state : ∀ op st, stepOperation s a = some op → op.target s.session = some st → st ≠ .stopped →
    Resumes s c a ∨ Underway Stops (written s op) c
  cache : ∀ op, stepOperation s a = some op → forgets info op = true →
    Underway (Caches info) (written s op) c

/-- Every stop is handed to a handler that records it: it is read when its connection is in the
slot and such a handler waits for it, and it is minded after that. Nothing is asked while the
slot is about to change. -/
structure Attended (s : ToolServer lldb) (a : System.Action lldb) : Prop where
  late : ∀ c body plan, a = receive c (.event (.stopped body)) →
    s.tasks c ≠ some (.start (.setBackend plan))
  heard : ∀ c body, a = receive c (.event (.stopped body)) → s.backend = some c →
    SlotChanges s ∨ Underway Listens s c
  minded : ∀ c k info, s.backend = some c → s.conns c = some k →
    k.link.lastExecution = some (.stopped info) → SlotChanges s ∨ Minds s a c k info

/-- The last stop of the debuggee in the slot is recorded, or a handler is under way that will
record it, or that will change the slot. -/
structure Kept (s : ToolServer lldb) : Prop where
  late : ∀ c plan k info, s.tasks c = some (.start (.setBackend plan)) → s.conns c = some k →
    k.link.lastExecution ≠ some (.stopped info)
  recorded : ∀ c k info, s.backend = some c → s.conns c = some k →
    k.link.lastExecution = some (.stopped info) →
    SlotChanges s ∨ ((s.session.state = .stopped ∨ Underway Stops s c) ∧
      (s.session.lastStopped = some info ∨ Underway (Caches info) s c))

/-! What a handler does that is under way. -/

theorem changesSlot_moves (move : TaskMoves s t pc pc' conn) (changes : changesSlot pc = true) :
    changesSlot pc' = true ∨ pc.slot t s.backend = none ∨
      ∃ plan, pc = .start (.setBackend plan) := by
  cases move with
  | start move =>
    cases move with
    | connectClear | cleanupClear => exact .inr (.inl rfl)
    | setBackend => exact .inr (.inr ⟨_, rfl⟩)
    | configuredLaunch | configuredAttach | flushed | connected | connectFailed | connectReset
    | connectResetOutput => exact .inl rfl
    | _ => cases changes
  | disconnect move =>
    cases move with
    | takeBackend => exact .inr (.inl rfl)
    | noBackend | begun | finished | timedOut => exact .inl rfl
    | _ => cases changes
  | resume | pause => cases changes

private theorem brings_operation {m : SessionManager} {op : SessionOp}
    (brings : Brings info g c t k pc) (writes : pc.operation = some op) :
    (∀ st, op.target m = some st → st = .stopped) ∧ forgets info op = false := by
  cases pc with
  | start p =>
    cases p with
    | setProgram =>
      cases writes
      exact ⟨fun st target => (by cases target), rfl⟩
    | setPid plan outcome pid =>
      cases pid <;> cases writes
      exact ⟨fun st target => (by cases target), rfl⟩
    | setOutcome plan outcome pid =>
      cases outcome with
      | stopped i =>
        cases writes
        exact ⟨fun st target => (Option.some.inj target).symm, rfl⟩
      | running | exited => exact brings.elim
    | starting | readPid => cases writes
    | _ => exact brings.elim
  | resume p =>
    cases p with
    | resuming => cases writes
    | applyStopped =>
      cases writes
      refine ⟨fun st target => ?_, rfl⟩
      simp only [SessionOp.target] at target
      split at target
      · exact (Option.some.inj target).symm
      · cases target
    | _ => exact brings.elim
  | disconnect | pause | done => exact brings.elim

private theorem stops_operation {m : SessionManager} {op : SessionOp} {st : State}
    (stops : Stops g c t k pc) (writes : pc.operation = some op) (target : op.target m = some st) :
    st = .stopped := by
  rcases stops with ⟨i, brings⟩ | reverts
  · exact (brings_operation brings writes).1 st target
  · cases pc with
    | resume p =>
      cases p with
      | resuming => cases writes
      | revert =>
        cases writes
        exact (Option.some.inj target).symm
      | _ => exact reverts.elim
    | _ => exact reverts.elim

private theorem caches_operation {op : SessionOp} (caches : Caches info g c t k pc)
    (writes : pc.operation = some op) : forgets info op = false := by
  rcases caches with brings | records
  · exact (brings_operation (m := SessionManager.new) brings writes).2
  · cases pc with
    | start p | resume p =>
      cases p with
      | cacheStopped =>
        cases writes
        exact decide_eq_false (not_not_intro records)
      | _ => exact records.elim
    | _ => exact records.elim

private theorem started_of_told {reply : Reply} {outcome : LaunchOutcome}
    (told : fails reply ∨ reports info reply) (started : startOutcome reply = some (.ok outcome)) :
    outcome = .stopped info := by
  rcases told with failed | reported
  · cases reply with
    | launch result | attach result =>
      cases result with
      | error e => cases started
      | ok outcome => exact failed.elim
    | resume | pause | disconnect => cases started
  · cases reply with
    | launch result | attach result =>
      cases result with
      | error e => exact reported.elim
      | ok outcome =>
        cases outcome with
        | stopped i =>
          cases reported
          cases started
          rfl
        | _ => exact reported.elim
    | resume | pause | disconnect => cases started

private theorem result_of_told {result : Except BackendError StopOutcome}
    (told : fails (.resume result) ∨ reports info (.resume result)) :
    (∃ e, result = .error e) ∨ result = .ok (.stopped info) := by
  rcases result with e | (i | code | _)
  · exact .inl ⟨e, rfl⟩
  · rcases told with failed | reported
    · exact failed.elim
    · cases reported
      exact .inr rfl
  · rcases told with failed | reported
    · exact failed.elim
    · exact reported.elim
  · rcases told with failed | reported
    · exact failed.elim
    · exact reported.elim

/-- Where the step of a handler leads that brings back a stop: to the change of the slot, to the
revert of a resume that has failed, or on, until it has set the state. -/
private inductive Brought (info : StopInfo) (c t : Nat) (k : Connection) (s : ToolServer lldb)
    (choice : Choice lldb) (s' : ToolServer lldb) : Prop where
  | leaves (changes : SlotChanges s')
  | failed {args : ResumeArgs} {g : UInt64} {f : Fut} {e : BackendError} (is : choice = .reply)
      (at_ : s.tasks t = some (.resume (.resuming args c g))) (call : k.calls t = some f)
      (done : f.program = .done (.resume (.error e))) (handed : Handed k f info)
      (there : s'.tasks t = some (.resume (.revert args g e)))
  | brings {pc' : Pc} (there : s'.tasks t = some pc')
      (brings : ∀ k', Brings info s.session.generation c t k' pc')
  | stopped {pc' : Pc} (state : s'.session.state = .stopped) (there : s'.tasks t = some pc')
      (records : Records info pc')

private theorem brings_own {choice : Choice lldb} {other : StopInfo} (served : Served k)
    (here : s.conns c = some k) (at_ : s.tasks t = some pc)
    (taken : s.step (.task t choice) = some s') (brings : Brings info s.session.generation c t k pc)
    (kept : ¬ Abandons s c k other (.task t choice)) : Brought info c t k s choice s' := by
  obtain ⟨pc', conn, move, after⟩ := task_step taken at_
  have there : s'.tasks t = some pc' := by
    rw [after]
    exact Function.update_self ..
  have session : s'.session = applyOption s.session pc.operation := by
    rw [after]
    rfl
  cases pc with
  | start p =>
    cases p with
    | starting plan =>
      obtain ⟨rfl, f, call, handed⟩ := brings
      cases move with
      | start move =>
        cases move with
        | succeeded here' finished started =>
          obtain rfl := Option.some.inj (here.symm.trans here')
          obtain ⟨f', call', done, -⟩ := finish_eq finished
          obtain rfl := Option.some.inj (call.symm.trans call')
          obtain rfl := started_of_told (handed.done (Served.hears served call) done) started
          exact .brings there fun _ => rfl
        | failed | cancelled => exact .leaves ⟨t, _, there, rfl⟩
    | setProgram plan outcome | setPid plan outcome | readPid plan outcome =>
      cases outcome with
      | stopped i =>
        cases move with
        | start move =>
          cases move
          exact .brings there fun _ => brings
      | running | exited => exact brings.elim
    | setOutcome plan outcome =>
      cases outcome with
      | stopped i =>
        cases move with
        | start move =>
          cases move
          exact .stopped (congrArg SessionManager.state session) there brings
      | running | exited => exact brings.elim
    | _ => exact brings.elim
  | resume p =>
    cases p with
    | resuming args b g' =>
      obtain ⟨rfl, rfl, f, call, handed⟩ := brings
      rcases resuming_next taken at_ here call with ⟨is, result, done, there⟩ | ⟨rfl, -⟩
      · rcases result_of_told (handed.done (Served.hears served call) done) with ⟨e, rfl⟩ | rfl
        · exact .failed is at_ call done handed there
        · exact .brings there fun _ => ⟨rfl, rfl⟩
      · exact absurd ⟨args, _, at_, .inl ⟨info, rfl, rfl, f, call, handed⟩⟩ kept
    | applyStopped g' i =>
      obtain ⟨rfl, rfl⟩ := brings
      cases move with
      | resume move =>
        cases move with
        | applied =>
          refine .stopped ?_ there rfl
          rw [session]
          simp [Pc.operation, ResumePc.operation, applyOption, apply_state, SessionOp.target]
        | notApplied stale => exact absurd rfl stale
    | _ => exact brings.elim
  | disconnect | pause | done => exact brings.elim

/-- The step of a handler that is to set the state stopped. -/
private theorem stops_own {choice : Choice lldb} (served : Served k) (here : s.conns c = some k)
    (at_ : s.tasks t = some pc) (taken : s.step (.task t choice) = some s')
    (stops : Stops s.session.generation c t k pc) (kept : ¬ Abandons s c k info (.task t choice)) :
    SlotChanges s' ∨ s'.session.state = .stopped ∨
      ∃ pc', s'.tasks t = some pc' ∧ ∀ k', Stops s.session.generation c t k' pc' := by
  have reverting : ∀ {args g e}, s'.tasks t = some (.resume (.revert args g e)) →
      ∃ pc', s'.tasks t = some pc' ∧ ∀ k', Stops s.session.generation c t k' pc' :=
    fun there => ⟨_, there, fun _ => .inr trivial⟩
  rcases stops with ⟨i, brings⟩ | reverts
  · cases brings_own served here at_ taken brings kept with
    | leaves changes => exact .inl changes
    | failed _ _ _ _ _ there => exact .inr (.inr (reverting there))
    | brings there brings => exact .inr (.inr ⟨_, there, fun k' => .inl ⟨i, brings k'⟩⟩)
    | stopped state => exact .inr (.inl state)
  · cases pc with
    | resume p =>
      cases p with
      | resuming args b g' =>
        obtain ⟨rfl, f, call, unsent⟩ := reverts
        rcases resuming_next taken at_ here call with ⟨-, result, done, there⟩ | ⟨rfl, -⟩
        · cases unsent with
          | registering _ other | sending _ other => cases other.symm.trans done
          | failed at_' =>
            cases at_'.symm.trans done
            exact .inr (.inr (reverting there))
        · exact absurd ⟨args, g', at_, .inr ⟨rfl, f, call, unsent⟩⟩ kept
      | revert =>
        obtain ⟨pc', conn, -, rfl⟩ := task_step taken at_
        exact .inr (.inl rfl)
      | _ => exact reverts.elim
    | _ => exact reverts.elim

/-- The step of a handler that is to cache the stop. -/
private theorem caches_own {choice : Choice lldb} (served : Served k) (here : s.conns c = some k)
    (at_ : s.tasks t = some pc) (taken : s.step (.task t choice) = some s')
    (caches : Caches info s.session.generation c t k pc)
    (kept : ¬ Abandons s c k info (.task t choice)) :
    SlotChanges s' ∨ s'.session.lastStopped = some info ∨
      ∃ pc', s'.tasks t = some pc' ∧ ∀ k', Caches info s.session.generation c t k' pc' := by
  rcases caches with brings | records
  · cases brings_own served here at_ taken brings kept with
    | leaves changes => exact .inl changes
    | failed is at_ call done handed =>
      subst is
      exact absurd ⟨_, _, _, _, at_, call, done, handed⟩ kept
    | brings there brings => exact .inr (.inr ⟨_, there, fun k' => .inl (brings k')⟩)
    | stopped _ there records => exact .inr (.inr ⟨_, there, fun _ => .inr records⟩)
  · obtain ⟨pc', conn, -, rfl⟩ := task_step taken at_
    cases pc with
    | start p | resume p =>
      cases p with
      | cacheStopped =>
        cases records
        exact .inr (.inl rfl)
      | _ => exact records.elim
    | _ => exact records.elim

/-- A property of a handler that is kept while the handler does not step, unless a resume is
written. -/
private def Frames (P : UInt64 → Nat → Nat → Connection → Pc → Prop) : Prop :=
  ∀ g c t k k' pc act, Served k → P g c t k pc → Backend.Steps.Moves k act k' →
    act ≠ .cancel t → act ≠ .finish t →
    P g c t k' pc ∨ k'.link.lastExecution = some .resumed

private theorem brings_frames {act : Backend.Adapter.Action} (served : Served k)
    (brings : Brings info g c t k pc) (moves : Backend.Steps.Moves k act k')
    (kept : act ≠ .cancel t) (unfinished : act ≠ .finish t) : Brings info g c t k' pc := by
  cases pc with
  | start p =>
    cases p with
    | starting =>
      obtain ⟨rfl, f, call, handed⟩ := brings
      obtain ⟨f', call', later⟩ := later_moves served call moves kept unfinished
      exact ⟨rfl, f', call', later.handed info handed⟩
    | setProgram _ outcome | setPid _ outcome | readPid _ outcome | setOutcome _ outcome =>
      cases outcome <;> exact brings
    | _ => exact brings
  | resume p =>
    cases p with
    | resuming =>
      obtain ⟨rfl, current, f, call, handed⟩ := brings
      obtain ⟨f', call', later⟩ := later_moves served call moves kept unfinished
      exact ⟨rfl, current, f', call', later.handed info handed⟩
    | _ => exact brings
  | disconnect | pause | done => exact brings

private theorem stops_frames : Frames Stops := by
  intro g c t k k' pc act served stops moves kept unfinished
  rcases stops with ⟨i, brings⟩ | reverts
  · exact .inl (.inl ⟨i, brings_frames served brings moves kept unfinished⟩)
  · cases pc with
    | resume p =>
      cases p with
      | resuming =>
        obtain ⟨rfl, f, call, unsent⟩ := reverts
        obtain ⟨f', call', later⟩ := later_moves served call moves kept unfinished
        exact (later.unsent unsent).imp_left fun still => .inr ⟨rfl, f', call', still⟩
      | _ => exact .inl (.inr reverts)
    | _ => exact .inl (.inr reverts)

private theorem caches_frames : Frames (Caches info) := by
  intro g c t k k' pc act served caches moves kept unfinished
  exact .inl (caches.imp_left fun brings => brings_frames served brings moves kept unfinished)

/-! What a step keeps. -/

/-- A handler that does not step is where it was, and so is what it is to do. -/
private theorem Underway.other {P : UInt64 → Nat → Nat → Connection → Pc → Prop} (frames : Frames P)
    (reach : Reach ToolServer.step ToolServer.new s) (taken : s.step a = some s')
    (at_ : s.tasks t = some pc) (here : s.conns c = some k) (holds : P g c t k pc)
    (other : ∀ choice, a ≠ .task t choice) (epoch : s'.session.generation = g)
    (there : s'.conns c = some k') (unwritten : k'.link.lastExecution ≠ some .resumed) :
    Underway P s' c := by
  refine ⟨t, pc, k', task_stays taken at_ other, there, ?_⟩
  rw [epoch]
  obtain ⟨k₁, there', same | ⟨act, drives, moves⟩⟩ := conn_driven reach taken here
  · obtain rfl := Option.some.inj (there.symm.trans there')
    exact same ▸ holds
  · obtain rfl := Option.some.inj (there.symm.trans there')
    have unended : ∀ h : act = .cancel t ∨ act = .finish t, False := fun h =>
      (drives.ends h).elim other
    exact (frames g c t k k' pc act (conn_served reach here) holds moves (fun h => unended (.inl h))
      fun h => unended (.inr h)).resolve_right unwritten

private theorem slotChanges_step (taken : s.step a = some s') (changes : SlotChanges s)
    (full : s'.backend ≠ none)
    (unset : ∀ t choice plan, a = .task t choice → s.tasks t ≠ some (.start (.setBackend plan))) :
    SlotChanges s' := by
  obtain ⟨t, pc, at_, changes⟩ := changes
  by_cases mine : ∃ choice, a = .task t choice
  · obtain ⟨choice, rfl⟩ := mine
    obtain ⟨pc', conn, move, rfl⟩ := task_step taken at_
    rcases changesSlot_moves move changes with still | empty | ⟨plan, rfl⟩
    · exact ⟨t, pc', Function.update_self _ _ _, still⟩
    · exact absurd empty full
    · exact absurd at_ (unset t choice plan rfl)
  · exact ⟨t, pc, task_stays taken at_ fun choice h => mine ⟨choice, h⟩, changes⟩

/-- A step that sets no backend changes the slot only to empty it. -/
private theorem slot_kept (taken : s.step a = some s') (slot : s'.backend = some c) :
    s.backend = some c ∨ ∃ choice plan, a = .task c choice ∧
      s.tasks c = some (.start (.setBackend plan)) ∧ s'.conns = s.conns := by
  cases moves_of_step taken with
  | call | cancelToken | conn | pump | bookkeeping => exact .inl slot
  | @task t choice pc pc' conn here move =>
    cases move with
    | start move =>
      cases move with
      | setBackend =>
        obtain rfl := Option.some.inj slot
        exact .inr ⟨choice, _, rfl, here, rfl⟩
      | connectClear | cleanupClear => cases slot
      | _ => exact .inl slot
    | disconnect move =>
      cases move with
      | takeBackend => cases slot
      | _ => exact .inl slot
    | resume | pause => exact .inl slot

/-- A stop of the debuggee was there, or it is read. -/
private theorem stopped_of_step (reach : Reach ToolServer.step ToolServer.new s)
    (taken : s.step a = some s') (there : s'.conns c = some k')
    (stopped : k'.link.lastExecution = some (.stopped info)) :
    ∃ k, s.conns c = some k ∧ (k.link.lastExecution = some (.stopped info) ∨
      ∃ body, a = receive c (.event (.stopped body)) ∧ info = stopInfoFromEvent body ∧
        k' = k.setLink (k.link.dispatch (.event (.stopped body)))) := by
  rcases conns_cases taken there with ⟨-, -, conf, -, -, -, rfl⟩ | ⟨k, here, -⟩
  · cases stopped
  · refine ⟨k, here, ?_⟩
    obtain ⟨k₁, there', same | ⟨act, drives, moves⟩⟩ := conn_driven reach taken here
    · obtain rfl := Option.some.inj (there.symm.trans there')
      exact .inl (same ▸ stopped)
    · obtain rfl := Option.some.inj (there.symm.trans there')
      rcases stopped_of_moves moves stopped with old | ⟨body, rfl, eq⟩
      · exact .inl old
      · cases drives with
        | act =>
          cases moves with
          | receive => exact .inr ⟨body, rfl, eq, rfl⟩

private theorem late_step (reach : Reach ToolServer.step ToolServer.new s) (kept : Kept s)
    (attended : Attended s a) (taken : s.step a = some s') {plan : Plan}
    (at_ : s'.tasks c = some (.start (.setBackend plan))) (there : s'.conns c = some k')
    (stopped : k'.link.lastExecution = some (.stopped info)) : False := by
  obtain ⟨k, here, before⟩ := stopped_of_step reach taken there stopped
  rcases tasks_cases taken at_ with old | ⟨tool, -, entry⟩ | ⟨choice, pc, conn, rfl, at_₀, move, -⟩
  · rcases before with last | ⟨body, rfl, -⟩
    · exact kept.late c plan k info old here last
    · exact attended.late c body plan rfl old
  · cases tool <;> cases entry
  · obtain ⟨pc₀, at_', past⟩ := opened_of_conn reach here
    obtain rfl := Option.some.inj (at_₀.symm.trans at_')
    generalize dest : Pc.start (.setBackend plan) = pc' at move
    cases move with
    | @start p goto conn move =>
      obtain rfl := ofGoto_start dest.symm
      cases move
      cases past
    | @disconnect p goto | @resume p goto | @pause p goto => cases goto <;> cases dest

/-- A resume that has set the state running has not been sent yet. -/
private theorem resumes_step (resumes : Resumes s c a) (taken : s.step a = some s') :
    Underway Stops s' c := by
  cases a with
  | task t choice =>
    obtain ⟨args, threadId, g, at_⟩ := resumes
    obtain ⟨pc', conn, move, rfl⟩ := task_step taken at_
    cases move with
    | resume move =>
      cases move with
      | setRunning here started =>
        obtain ⟨-, rfl⟩ := start_eq started
        obtain ⟨request, program, known⟩ := program_resumed args.resume threadId args.granularity
        exact ⟨t, _, _, Function.update_self _ _ _, Function.update_self _ _ _, .inr ⟨rfl, _,
          Function.update_self _ _ _, .registering known program⟩⟩
  | _ => exact resumes.elim

private theorem operation_of_step (choice : Choice lldb) {op : SessionOp}
    (at_ : s.tasks t = some pc) (writes : stepOperation s (.task t choice) = some op) :
    pc.operation = some op :=
  (taskOperation_of at_).symm.trans writes

private theorem state_step (reach : Reach ToolServer.step ToolServer.new s)
    (taken : s.step a = some s')
    (here : s.conns c = some k) (there : s'.conns c = some k')
    (unwritten : k'.link.lastExecution ≠ some .resumed) (minds : Minds s a c k info)
    (held : s.session.state = .stopped ∨ Underway Stops s c) :
    SlotChanges s' ∨ s'.session.state = .stopped ∨ Underway Stops s' c := by
  by_cases strays : ∃ op st, stepOperation s a = some op ∧ op.target s.session = some st ∧
      st ≠ .stopped
  · obtain ⟨op, st, writes, target, other⟩ := strays
    rcases minds.state op st writes target other with resumes | ⟨t, pc, k₁, at_, here', stops⟩
    · exact .inr (.inr (resumes_step resumes taken))
    · have session : s'.session = op.apply s.session := by
        rw [step_session taken, writes]
        rfl
      refine .inr (.inr (Underway.other stops_frames reach taken at_ here' stops ?_
        (by rw [session]; rfl) there unwritten))
      rintro choice rfl
      exact other (stops_operation stops (operation_of_step choice at_ writes) target)
  · have epoch : s'.session.generation = s.session.generation :=
      step_generation taken fun resets =>
        strays ⟨.resetInner, .idle, resets_iff.mp resets, rfl, fun h => by cases h⟩
    rcases held with stopped | ⟨t, pc, k₁, at_, here', stops⟩
    · refine .inr (.inl ?_)
      rw [step_session taken]
      cases writes : stepOperation s a with
      | none => exact stopped
      | some op =>
        rw [show applyOption s.session (some op) = op.apply s.session from rfl, apply_state]
        cases target : op.target s.session with
        | none => exact stopped
        | some st => exact not_not.mp fun other => strays ⟨op, st, writes, target, other⟩
    · obtain rfl := Option.some.inj (here.symm.trans here')
      by_cases mine : ∃ choice, a = .task t choice
      · obtain ⟨choice, rfl⟩ := mine
        rcases stops_own (conn_served reach here) here at_ taken stops minds.call with
          changes | stopped | ⟨pc', at_', stops'⟩
        · exact .inl changes
        · exact .inr (.inl stopped)
        · exact .inr (.inr ⟨t, pc', k', at_', there, epoch ▸ stops' k'⟩)
      · exact .inr (.inr (Underway.other stops_frames reach taken at_ here stops
          (fun choice h => mine ⟨choice, h⟩) epoch there unwritten))

private theorem lastStopped_apply {m : SessionManager} {op : SessionOp}
    (cached : m.lastStopped = some info) (keeps : forgets info op = false) :
    (op.apply m).lastStopped = some info := by
  cases op with
  | setLastStopped i => exact congrArg some (not_not.mp (of_decide_eq_false keeps))
  | setStateIfGeneration | terminateIfGeneration =>
    simp only [SessionOp.apply, SessionManager.setStateIfGeneration,
      SessionManager.terminateIfGeneration]
    split <;> exact cached
  | resetInner => cases keeps
  | bookkeeping op => exact (congrArg Core.lastStopped (bookkeeping_core m op)).trans cached
  | _ => exact cached

private theorem cache_step (reach : Reach ToolServer.step ToolServer.new s)
    (taken : s.step a = some s')
    (here : s.conns c = some k) (there : s'.conns c = some k')
    (unwritten : k'.link.lastExecution ≠ some .resumed) (minds : Minds s a c k info)
    (held : s.session.lastStopped = some info ∨ Underway (Caches info) s c) :
    SlotChanges s' ∨ s'.session.lastStopped = some info ∨ Underway (Caches info) s' c := by
  by_cases strays : ∃ op, stepOperation s a = some op ∧ forgets info op = true
  · obtain ⟨op, writes, lost⟩ := strays
    obtain ⟨t, pc, k₁, at_, here', caches⟩ := minds.cache op writes lost
    have session : s'.session = op.apply s.session := by
      rw [step_session taken, writes]
      rfl
    refine .inr (.inr (Underway.other caches_frames reach taken at_ here' caches ?_
      (by rw [session]; rfl) there unwritten))
    rintro choice rfl
    rw [caches_operation caches (operation_of_step choice at_ writes)] at lost
    cases lost
  · have epoch : s'.session.generation = s.session.generation :=
      step_generation taken fun resets => strays ⟨.resetInner, resets_iff.mp resets, rfl⟩
    rcases held with cached | ⟨t, pc, k₁, at_, here', caches⟩
    · refine .inr (.inl ?_)
      rw [step_session taken]
      cases writes : stepOperation s a with
      | none => exact cached
      | some op =>
        exact lastStopped_apply cached (eq_false_of_ne_true fun h => strays ⟨op, writes, h⟩)
    · obtain rfl := Option.some.inj (here.symm.trans here')
      by_cases mine : ∃ choice, a = .task t choice
      · obtain ⟨choice, rfl⟩ := mine
        rcases caches_own (conn_served reach here) here at_ taken caches minds.call with
          changes | cached | ⟨pc', at_', caches'⟩
        · exact .inl changes
        · exact .inr (.inl cached)
        · exact .inr (.inr ⟨t, pc', k', at_', there, epoch ▸ caches' k'⟩)
      · exact .inr (.inr (Underway.other caches_frames reach taken at_ here caches
          (fun choice h => mine ⟨choice, h⟩) epoch there unwritten))

/-- The stop is handed to the call that waits for it. -/
private theorem heard_step {body : StoppedBody} (reach : Reach ToolServer.step ToolServer.new s)
    (heard : Underway Listens s c) (taken : s.step (receive c (.event (.stopped body))) = some s')
    (here : s.conns c = some k)
    (there : s'.conns c = some (k.setLink (k.link.dispatch (.event (.stopped body))))) :
    Underway Stops s' c ∧ Underway (Caches (stopInfoFromEvent body)) s' c := by
  obtain ⟨t, pc, k₁, at_, here', listens⟩ := heard
  obtain rfl := Option.some.inj (here.symm.trans here')
  have at_' : s'.tasks t = some pc := task_stays taken at_ fun choice h => by cases h
  have epoch : s'.session.generation = s.session.generation := step_generation taken id
  have sound := (conn_served reach here).sound
  have brings : Brings (stopInfoFromEvent body) s'.session.generation c t
      (k.setLink (k.link.dispatch (.event (.stopped body)))) pc := by
    cases pc with
    | start p =>
      cases p with
      | starting =>
        obtain ⟨rfl, f, w, call, waiter, slot⟩ := listens
        exact ⟨rfl, f, call, handed_of_stop sound waiter slot⟩
      | _ => exact listens.elim
    | resume p =>
      cases p with
      | resuming =>
        obtain ⟨rfl, rfl, f, w, call, waiter, slot⟩ := listens
        exact ⟨rfl, epoch.symm, f, call, handed_of_stop sound waiter slot⟩
      | _ => exact listens.elim
    | disconnect | pause | done => exact listens.elim
  exact ⟨⟨t, pc, _, at_', there, .inl ⟨_, brings⟩⟩, ⟨t, pc, _, at_', there, .inl brings⟩⟩

theorem kept_step (reach : Reach ToolServer.step ToolServer.new s) (kept : Kept s)
    (attended : Attended s a) (taken : s.step a = some s') : Kept s' where
  late c plan k' info at_ there stopped := late_step reach kept attended taken at_ there stopped
  recorded c k' info slot there stopped := by
    have unwritten : k'.link.lastExecution ≠ some .resumed := by
      rw [stopped]
      exact fun h => by cases h
    obtain ⟨k, here, before⟩ := stopped_of_step reach taken there stopped
    by_cases changes : SlotChanges s'
    · exact .inl changes
    by_cases sets : ∃ t choice plan, a = .task t choice ∧
        s.tasks t = some (.start (.setBackend plan))
    · -- The new backend has had no stop.
      obtain ⟨t, choice, plan, rfl, at_⟩ := sets
      obtain ⟨pc', conn, move, rfl⟩ := task_step taken at_
      obtain rfl := Option.some.inj slot
      rcases before with last | ⟨body, eq, -⟩
      · exact absurd last (kept.late t plan k info at_ here)
      · cases eq
    have quiet : ¬ SlotChanges s := fun before => changes
      (slotChanges_step taken before (by rw [slot]; exact fun h => by cases h)
        fun t choice plan h at_ => sets ⟨t, choice, plan, h, at_⟩)
    have slot₀ : s.backend = some c := by
      rcases slot_kept taken slot with same | ⟨choice, plan, h, at_, -⟩
      · exact same
      · exact absurd ⟨c, choice, plan, h, at_⟩ sets
    right
    rcases before with last | ⟨body, rfl, rfl, rfl⟩
    · have minds := (attended.minded c k info slot₀ here last).resolve_left quiet
      obtain ⟨state, cache⟩ := (kept.recorded c k info slot₀ here last).resolve_left quiet
      exact ⟨(state_step reach taken here there unwritten minds state).resolve_left changes,
        (cache_step reach taken here there unwritten minds cache).resolve_left changes⟩
    · obtain ⟨stops, caches⟩ := heard_step reach ((attended.heard c body rfl slot₀).resolve_left
        quiet) taken here there
      exact ⟨.inr stops, .inr caches⟩

private theorem kept_new : Kept ToolServer.new where
  late _ _ _ _ h := by cases h
  recorded _ _ _ h := by cases h

/-- A handler that has returned has nothing left to do. -/
private theorem not_underway {P : UInt64 → Nat → Nat → Connection → Pc → Prop}
    (idle : ∀ {g c t k outcome}, ¬ P g c t k (.done outcome)) (quiet : Quiet s) :
    ¬ Underway P s c := by
  rintro ⟨t, pc, k, at_, -, holds⟩
  obtain ⟨outcome, rfl⟩ := quiet t pc at_
  exact idle holds

private theorem stops_done {outcome : Response.ToolOutcome} : ¬ Stops g c t k (.done outcome) := by
  rintro (⟨i, brings⟩ | reverts)
  · exact brings
  · exact reverts

private theorem caches_done {outcome : Response.ToolOutcome} :
    ¬ Caches info g c t k (.done outcome) := by
  rintro (brings | records)
  · exact brings
  · exact records

/-- In every run in which every stop is attended to, the session has recorded the last stop of
the debuggee once no handler is in flight. -/
theorem stop_recorded {as : List (System.Action lldb)}
    (run : Run ToolServer.step Attended ToolServer.new as s) (quiet : Quiet s)
    (slot : s.backend = some c) (here : s.conns c = some k)
    (last : k.link.lastExecution = some (.stopped info)) :
    s.session.state = .stopped ∧ s.session.lastStopped = some info := by
  have both : Reach ToolServer.step ToolServer.new s ∧ Kept s :=
    run.keeps (I := fun s => Reach ToolServer.step ToolServer.new s ∧ Kept s)
      (fun _ _ _ both attended taken =>
        ⟨both.1.next taken, kept_step both.1 both.2 attended taken⟩) ⟨.start _, kept_new⟩
  rcases both.2.recorded c k info slot here last with ⟨t, pc, at_, changes⟩ | ⟨state, cache⟩
  · obtain ⟨outcome, rfl⟩ := quiet t pc at_
    cases changes
  · exact ⟨state.resolve_right (not_underway stops_done quiet),
      cache.resolve_right (not_underway caches_done quiet)⟩

/-- The last stop of the debuggee in the slot. -/
def lastStop (s : ToolServer lldb) : Option StopInfo :=
  s.backend.bind fun c => (s.conns c).bind fun k =>
    match k.link.lastExecution with
    | some (.stopped info) => some info
    | _ => none

/-- A launch or attach attends to the stop: it waits for it, and then writes nothing that is not
about it. -/
def startAttends (s : ToolServer lldb) : System.Action lldb → Bool
  | .conn c (.receive (.event (.stopped _))) =>
    ((s.tasks c).any fun
      | .start (.starting _) => true
      | _ => false) &&
    (s.conns c).any fun k => (k.calls c).any fun f =>
      f.waiter.isSome && k.link.shared.stopWaiter.slot == f.waiter
  | .task t _ => (lastStop s).all fun info => (s.tasks t).any fun
    | .start pc => pc.operation.all fun op =>
      (op.target s.session).all (· == .stopped) && !forgets info op
    | _ => false
  | .call .. | .cancelToken _ | .conn .. => true
  | .pump .. | .bookkeeping _ => false

private theorem minds_unwritten (idle : stepOperation s a = none) (call : ¬ Abandons s c k info a) :
    Minds s a c k info where
  call := call
  state op st writes := by cases idle.symm.trans writes
  cache op writes := by cases idle.symm.trans writes

private theorem startAttends_minds (attends : startAttends s a = true) (slot : s.backend = some c)
    (here : s.conns c = some k) (last : k.link.lastExecution = some (.stopped info)) :
    Minds s a c k info := by
  cases a with
  | call | cancelToken | conn => exact minds_unwritten rfl id
  | pump | bookkeeping => cases attends
  | task t choice =>
    have stop : lastStop s = some info := by
      simp only [lastStop, slot, here, Option.bind_some, last]
    simp only [startAttends, stop, Option.all_some] at attends
    obtain ⟨pc, at_, attends⟩ := (Option.any_eq_true _ _).mp attends
    cases pc with
    | start p =>
      have writes : ∀ op, stepOperation s (.task t choice) = some op → p.operation = some op :=
        fun op writes => operation_of_step choice at_ writes
      have fits : ∀ op, stepOperation s (.task t choice) = some op →
          (op.target s.session).all (· == .stopped) = true ∧ forgets info op = false := by
        intro op written
        simpa only [writes op written, Option.all_some, Bool.and_eq_true, Bool.not_eq_true']
          using attends
      refine ⟨?_, fun op st written target other => ?_, fun op written lost => ?_⟩
      · cases choice <;> first | exact id | skip
        · rintro ⟨args, g, f, e, at_', -⟩
          cases at_.symm.trans at_'
        · rintro ⟨args, g, at_', -⟩
          cases at_.symm.trans at_'
      · have only := (fits op written).1
        rw [target] at only
        exact absurd (beq_iff_eq.mp only) other
      · cases (fits op written).2.symm.trans lost
    | disconnect | resume | pause | done => cases attends

private theorem attended_of_start (attends : startAttends s a = true) : Attended s a := by
  have waits : ∀ {c body}, a = receive c (.event (.stopped body)) →
      ∃ plan k f w, s.tasks c = some (.start (.starting plan)) ∧ s.conns c = some k ∧
        k.calls c = some f ∧ f.waiter = some w ∧ k.link.shared.stopWaiter.slot = some w := by
    rintro c body rfl
    obtain ⟨at_, rest⟩ := (Bool.and_eq_true _ _).mp attends
    obtain ⟨pc, at_, starts⟩ := (Option.any_eq_true _ _).mp at_
    obtain ⟨k, here, rest⟩ := (Option.any_eq_true _ _).mp rest
    obtain ⟨f, call, rest⟩ := (Option.any_eq_true _ _).mp rest
    obtain ⟨registered, same⟩ := (Bool.and_eq_true _ _).mp rest
    obtain ⟨w, waiter⟩ := Option.isSome_iff_exists.mp registered
    split at starts
    · exact ⟨_, k, f, w, at_, here, call, waiter, (beq_iff_eq.mp same).trans waiter⟩
    · cases starts
  refine ⟨fun c body plan eq at_ => ?_, fun c body eq _ => ?_, fun c k info slot here last =>
    .inr (startAttends_minds attends slot here last)⟩
  · obtain ⟨plan', -, -, -, at_', -⟩ := waits eq
    cases at_.symm.trans at_'
  · obtain ⟨plan, k, f, w, at_, here, call, waiter, slot⟩ := waits eq
    exact .inr ⟨c, _, k, at_, here, rfl, f, w, call, waiter, slot⟩

/-- A launch that stops at the entry. -/
def stopOnEntry : List (System.Action lldb) :=
  launchCall 0 true ++ handshake 0 true ++ launchStopped 0

theorem stop_recorded_entry : ∃ s : ToolServer lldb,
    Run ToolServer.step Attended ToolServer.new stopOnEntry s ∧
    Quiet s ∧ lastStop s = some ⟨"entry", 1, "", []⟩ ∧ s.session.state = .stopped ∧
    s.session.lastStopped = some ⟨"entry", 1, "", []⟩ := by
  have eval : ((exec ToolServer.step (fun s a => startAttends s a = true)
      (ToolServer.new : ToolServer lldb)
      stopOnEntry).map fun s => (lastStop s, returned s 0)) =
      some (some ⟨"entry", 1, "", []⟩, true) := by
    decide +kernel
  obtain ⟨s, executed, eq⟩ := Option.map_eq_some_iff.mp eval
  obtain ⟨last, done⟩ := Prod.mk.inj eq
  have run := (run_of_exec executed).weaken fun _ _ attends => attended_of_start attends
  obtain ⟨outcome, done⟩ := returned_eq done
  have quiet := quiet_of_onlyFirst run.any (by decide) done
  obtain ⟨c, slot, rest⟩ := Option.bind_eq_some_iff.mp last
  obtain ⟨k, here, stopped⟩ := Option.bind_eq_some_iff.mp rest
  split at stopped
  · cases stopped
    exact ⟨s, run, quiet, last, stop_recorded run quiet slot here ‹_›⟩
  · cases stopped

/-- A stop that is read while no handler is in flight leaves the session as it was. -/
theorem stop_unheard {body : StoppedBody} (quiet : Quiet s)
    (taken : s.step (receive c (.event (.stopped body))) = some s') :
    Quiet s' ∧ s'.session = s.session := by
  cases moves_of_step taken with
  | conn => exact ⟨quiet, rfl⟩

/-- A launch that does not stop at the entry. -/
def running : List (System.Action lldb) :=
  launchCall 0 false ++ handshake 0 false ++ launchRunning 0

/-- A breakpoint is hit once the launch has returned, and no call waits for the stop. -/
theorem stop_dropped :
    ¬ ∀ (s : ToolServer lldb) (c : Nat) (k : Connection) (info : StopInfo),
      Reach ToolServer.step ToolServer.new s → Quiet s → s.backend = some c → s.conns c = some k →
      k.link.lastExecution = some (.stopped info) →
      s.session.state = .stopped ∧ s.session.lastStopped = some info := by
  intro recorded
  have eval : ((exec ToolServer.step anyStep (ToolServer.new : ToolServer lldb)
      running).bind fun s =>
      (s.step (receive 0 (stoppedEvent "breakpoint"))).map fun s' =>
        ((returned s 0, s.session.state), lastStop s')) =
      some ((true, .running), some ⟨"breakpoint", 1, "", []⟩) := by
    decide +kernel
  obtain ⟨s, executed, rest⟩ := Option.bind_eq_some_iff.mp eval
  obtain ⟨s', taken, eq⟩ := Option.map_eq_some_iff.mp rest
  obtain ⟨before, last⟩ := Prod.mk.inj eq
  obtain ⟨done, running⟩ := Prod.mk.inj before
  obtain ⟨outcome, done⟩ := returned_eq done
  have quiet := quiet_of_onlyFirst (run_of_exec executed) (by decide) done
  obtain ⟨quiet', same⟩ := stop_unheard quiet taken
  obtain ⟨c, slot, rest⟩ := Option.bind_eq_some_iff.mp last
  obtain ⟨k, here, stopped⟩ := Option.bind_eq_some_iff.mp rest
  split at stopped
  · have state := (recorded s' c k _ ((reach_of_exec executed).next taken) quiet' slot here ‹_›).1
    rw [same, running] at state
    cases state
  · cases stopped

end LldbDebugMcp.Server.Recorded
