/- module: LldbDebugMcp/Server/Status
   source: crates/mcp-tools/src/handlers/inspection.rs, crates/mcp-session/src/manager.rs
   digest: The status call, one lock acquisition a read, among the writes of the other handlers,
   and when it shows the session as it was at one moment. -/

import LldbDebugMcp.Library.Effect
import LldbDebugMcp.Server.Lldb

set_option autoImplicit false
set_option relaxedAutoImplicit false

namespace LldbDebugMcp.Server.Status

open LldbDebugMcp.Core.Types
open LldbDebugMcp.Library.Effect
open LldbDebugMcp.Library.Transition
open LldbDebugMcp.Session.Manager
open LldbDebugMcp.Session.Operation
open LldbDebugMcp.Server.Contract
open LldbDebugMcp.Server.Response
open LldbDebugMcp.Server.Lifecycle
open LldbDebugMcp.Server.Execution
open LldbDebugMcp.Server.System
open LldbDebugMcp.Server.Steps
open LldbDebugMcp.Server.Lldb

/-- The accessors that a status call uses, each of which takes the lock of the session. -/
inductive Accessor where
  | state
  | program
  | pid
  | lastStopped
  | exitCode
  deriving DecidableEq

abbrev Accessor.Result : Accessor → Type
  | .state => State
  | .program => String
  | .pid => Int
  | .lastStopped => Option StopInfo
  | .exitCode => Option Int

/-- What the accessors return. -/
def answer (m : SessionManager) : (q : Accessor) → q.Result
  | .state => m.state
  | .program => m.program
  | .pid => m.pid
  | .lastStopped => m.lastStopped
  | .exitCode => m.exitCode

abbrev Reads (α : Type) := Program Accessor Accessor.Result α

def access (q : Accessor) : Reads q.Result := Program.perform q

/-- The fields about the last stop. -/
def stopFields (event : StopInfo) : List (String × Value) :=
  [("stop_reason", .string event.reason), ("stopped_thread_id", .int event.threadId)] ++
    (if event.description.isEmpty then []
      else [("stop_description", .string event.description)]) ++
    if event.hitBreakpointIds.isEmpty then []
    else [("hit_breakpoint_ids", .array (event.hitBreakpointIds.map .int))]

def handleStatus : Reads ToolOutcome := do
  let state ← access .state
  let shown := [("state", Value.string state.display)]
  match state with
  | .idle => return .json (.object (shown ++ [("message", .string "No active debug session")]))
  | .configuring =>
    return .json (.object (shown ++ [("message", .string "Debug session is being configured")]))
  | .stopped =>
    let program ← access .program
    let pid ← access .pid
    let event ← access .lastStopped
    return .json (.object (shown ++ [("program", .string program), ("pid", .int pid)] ++
      (event.map stopFields).getD []))
  | .running =>
    let program ← access .program
    let pid ← access .pid
    return .json (.object (shown ++ [("program", .string program), ("pid", .int pid)]))
  | .terminated =>
    let program ← access .program
    let code ← access .exitCode
    return .json (.object (shown ++ [("program", .string program)] ++
      match code with
      | some code => [("exit_code", .int code)]
      | none => []))

/-- The rendering of one state of the session. -/
def rendering (m : SessionManager) : ToolOutcome := handleStatus.eval (answer m)

/-- A status call: what it has read so far, and what is left of the handler. -/
structure StatusCall where
  log : List ((q : Accessor) × q.Result)
  rest : Reads ToolOutcome

namespace StatusCall

def entry : StatusCall := ⟨[], handleStatus⟩

/-- The next read. -/
def next (call : StatusCall) (m : SessionManager) : Option StatusCall :=
  match call.rest with
  | .done _ => none
  | .op q rest => some ⟨call.log ++ [⟨q, answer m q⟩], rest (answer m q)⟩

def returned (call : StatusCall) : Option ToolOutcome :=
  match call.rest with
  | .done outcome => some outcome
  | .op .. => none

end StatusCall

/-- The server with the status calls on it. `stop` is a history variable: the stop with which
the state was last set stopped. -/
structure Watched (S : Seam) where
  server : ToolServer S
  stop : Option StopInfo
  calls : Nat → Option StatusCall

/-- The stop that has put the session in the state stopped, after a step of the server. A resume
that is taken back leaves the debuggee at the stop that it was at. -/
def stopAfter {S : Seam} (s : ToolServer S) (stop : Option StopInfo) :
    System.Action S → Option StopInfo
  | .task t _ =>
    match s.tasks t with
    | some (.start (.setOutcome _ (.stopped info) _)) => some info
    | some (.resume (.applyStopped g info)) => if s.session.generation = g then some info else stop
    | some pc => if pc.operation.any SessionOp.isReset then none else stop
    | none => stop
  | _ => stop

inductive Action (S : Seam) where
  | server (a : System.Action S)
  | status (t : Nat)
  /-- A status call makes its next read. -/
  | read (t : Nat)

section

variable {S : Seam}

namespace Watched

def new : Watched S := ⟨ToolServer.new, none, fun _ => none⟩

def setCall (w : Watched S) (t : Nat) (call : StatusCall) : Watched S :=
  { w with calls := Function.update w.calls t (some call) }

def step (w : Watched S) : Action S → Option (Watched S)
  | .server a => (w.server.step a).map fun server =>
    { w with server := server, stop := stopAfter w.server w.stop a }
  | .status t =>
    match w.calls t with
    | none => some (w.setCall t .entry)
    | some _ => none
  | .read t => (w.calls t).bind fun call => (call.next w.server.session).map (w.setCall t)

/-- The call is under way. -/
def underWay (w : Watched S) (t : Nat) : Prop :=
  ∃ call, w.calls t = some call ∧ call.returned = none

/-- The response is the rendering of the session as it is, and when it says that the session is
stopped, it shows the stop that has put it in that state. -/
structure Snapshot (w : Watched S) (outcome : ToolOutcome) : Prop where
  rendered : outcome = rendering w.server.session
  stop : w.server.session.state = .stopped →
    outcome = rendering { w.server.session with lastStopped := w.stop }

end Watched

/-- The stop that is cached is the one that has put the session in the state stopped. -/
def Settled (m : SessionManager) (stop : Option StopInfo) : Prop :=
  m.state = .stopped → m.lastStopped = stop

/-- Status calls and writes keep out of each other's way: a write changes no field that a call
which has begun to read is still to read, unless the session comes to be as the call has read it
so far, and the state is not read as stopped between a handler's write of it and the write of
its stop. -/
structure Apart (w : Watched S) (a : Action S) : Prop where
  undisturbed : ∀ b, a = .server b → ∀ t call, w.calls t = some call → call.log ≠ [] →
    let m' := applyOption w.server.session (stepOperation w.server b)
    (∀ q, call.rest.Uses q → answer m' q = answer w.server.session q) ∨
      (Program.Agree (answer m') call.log ∧ Settled m' (stopAfter w.server w.stop b))
  settled : ∀ t, a = .read t → ∀ call, w.calls t = some call → call.log = [] →
    Settled w.server.session w.stop

variable {w w' v : Watched S} {as : List (Action S)} {a : Action S} {t : Nat}
  {call call' : StatusCall} {outcome : ToolOutcome}

private theorem calls_setCall {t' : Nat} (there : (w.setCall t' call').calls t = some call) :
    t = t' ∧ call' = call ∨ w.calls t = some call := by
  simp only [Watched.setCall] at there
  by_cases same : t = t'
  · subst same
    rw [Function.update_self] at there
    exact .inl ⟨rfl, Option.some.inj there⟩
  · rw [Function.update_of_ne same] at there
    exact .inr there

private theorem leads_nil {rest : Reads ToolOutcome} (leads : Program.Leads handleStatus [] rest) :
    rest = handleStatus := by
  generalize empty : ([] : List ((q : Accessor) × q.Result)) = log at leads
  cases leads with
  | start => rfl
  | next before r => simp at empty

/-- What a read does. -/
private theorem next_eq {m : SessionManager} (moved : call.next m = some call') :
    ∃ q rest, call.rest = .op q rest ∧
      call' = ⟨call.log ++ [⟨q, answer m q⟩], rest (answer m q)⟩ := by
  unfold StatusCall.next at moved
  split at moved
  · cases moved
  · rename_i q rest there
    exact ⟨q, rest, there, (Option.some.inj moved).symm⟩

/-- What the call is going to return, if it reads on at once, is a snapshot of a moment at which
it was under way. -/
def Shows (as : List (Action S)) (w : Watched S) (t : Nat) (call : StatusCall) : Prop :=
  ∃ bs cs v, as = bs ++ cs ∧ Run Watched.step Apart Watched.new bs v ∧ v.underWay t ∧
    Settled v.server.session v.stop ∧
    call.rest.eval (answer w.server.session) = rendering v.server.session

private theorem Shows.later (shows : Shows as w t call)
    (same : call'.rest.eval (answer w'.server.session) = call.rest.eval (answer w.server.session)) :
    Shows (as ++ [a]) w' t call' := by
  obtain ⟨bs, cs, v, rfl, run, under, settled, eq⟩ := shows
  exact ⟨bs, cs ++ [a], v, List.append_assoc .., run, under, settled, same.trans eq⟩

/-- A call has read along the handler, and once it has begun, it shows a moment. -/
structure Reading (as : List (Action S)) (w : Watched S) (t : Nat) (call : StatusCall) : Prop where
  leads : Program.Leads handleStatus call.log call.rest
  shows : call.log ≠ [] → Shows as w t call

private theorem Reading.server {b : System.Action S}
    (run : Run Watched.step Apart Watched.new as w) (reading : Reading as w t call)
    (here : w.calls t = some call) (apart : Apart w (.server b))
    (taken : w.step (.server b) = some w') : Reading (as ++ [.server b]) w' t call := by
  refine ⟨reading.leads, fun begun => ?_⟩
  have after := run.append (.single apart taken)
  obtain ⟨server, moved, rfl⟩ := Option.map_eq_some_iff.mp taken
  have session := step_session moved
  rcases apart.undisturbed b rfl t call here begun with same | ⟨agree, settled⟩
  · refine (reading.shows begun).later (Program.eval_congr ?_)
    rwa [session]
  · rw [← session] at agree settled
    cases rest : call.rest with
    | done outcome =>
      refine (reading.shows begun).later ?_
      rw [rest]
      rfl
    | op q next =>
      have under : call.returned = none := by
        unfold StatusCall.returned
        rw [rest]
      exact ⟨_, [], _, (List.append_nil _).symm, after, ⟨call, here, under⟩, settled,
        reading.leads.eval agree⟩

private theorem Reading.read (run : Run Watched.step Apart Watched.new as w)
    (reading : Reading as w t call) (here : w.calls t = some call) (apart : Apart w (.read t))
    (moved : call.next w.server.session = some call')
    (session : w'.server.session = w.server.session) : Reading (as ++ [.read t]) w' t call' := by
  obtain ⟨q, rest, there, rfl⟩ := next_eq moved
  have leads := reading.leads
  rw [there] at leads
  refine ⟨leads.next _, fun _ => ?_⟩
  have same : (rest (answer w.server.session q)).eval (answer w'.server.session) =
      call.rest.eval (answer w.server.session) := by
    rw [session, there]
    rfl
  by_cases begun : call.log = []
  · have whole : call.rest = handleStatus := leads_nil (begun ▸ reading.leads)
    have under : call.returned = none := by
      unfold StatusCall.returned
      rw [there]
    exact ⟨as, [.read t], w, rfl, run, ⟨call, here, under⟩, apart.settled t rfl call here begun,
      by rw [same, whole]; rfl⟩
  · exact (reading.shows begun).later same

private theorem Reading.other (reading : Reading as w t call)
    (session : w'.server.session = w.server.session) : Reading (as ++ [a]) w' t call :=
  ⟨reading.leads, fun begun => (reading.shows begun).later (by rw [session])⟩

/-- A call after a step was there before it, or has just begun, or has made its next read. -/
private theorem calls_cases (taken : w.step a = some w') (there : w'.calls t = some call) :
    (∃ b, a = .server b ∧ w.calls t = some call) ∨
    w'.server = w.server ∧ (w.calls t = some call ∨ call = .entry ∨
      ∃ call₀, a = .read t ∧ w.calls t = some call₀ ∧
        call₀.next w.server.session = some call) := by
  cases a with
  | server b =>
    obtain ⟨server, -, rfl⟩ := Option.map_eq_some_iff.mp taken
    exact .inl ⟨b, rfl, there⟩
  | status t' =>
    simp only [Watched.step] at taken
    split at taken
    · obtain rfl := Option.some.inj taken
      rcases calls_setCall there with ⟨rfl, rfl⟩ | old
      · exact .inr ⟨rfl, .inr (.inl rfl)⟩
      · exact .inr ⟨rfl, .inl old⟩
    · cases taken
  | read t' =>
    obtain ⟨call₀, here, rest⟩ := Option.bind_eq_some_iff.mp taken
    obtain ⟨call', moved, rfl⟩ := Option.map_eq_some_iff.mp rest
    rcases calls_setCall there with ⟨rfl, rfl⟩ | old
    · exact .inr ⟨rfl, .inr (.inr ⟨call₀, rfl, here, moved⟩)⟩
    · exact .inr ⟨rfl, .inl old⟩

private theorem reading_step (run : Run Watched.step Apart Watched.new as w)
    (all : ∀ t call, w.calls t = some call → Reading as w t call) (apart : Apart w a)
    (taken : w.step a = some w') :
    ∀ t call, w'.calls t = some call → Reading (as ++ [a]) w' t call := by
  intro t call there
  rcases calls_cases taken there with
    ⟨b, rfl, here⟩ | ⟨same, old | rfl | ⟨call₀, rfl, here, moved⟩⟩
  · exact (all t call here).server run here apart taken
  · exact (all t call old).other (by rw [same])
  · exact ⟨.start, fun begun => absurd rfl begun⟩
  · exact (all t call₀ here).read run here apart moved (by rw [same])

/-- In a run in which status calls and writes keep out of each other's way, the response of every
status call is the rendering of the session at one moment at which the call was under way, and
shows the stop that had put the session in the state stopped. -/
theorem status_snapshot (run : Run Watched.step Apart Watched.new as w)
    (here : w.calls t = some call) (returned : call.returned = some outcome) :
    ∃ bs cs v, as = bs ++ cs ∧ Run Watched.step Apart Watched.new bs v ∧ v.underWay t ∧
      v.Snapshot outcome := by
  have reading := run.keeps_history
    (I := fun as w => ∀ t call, w.calls t = some call → Reading as w t call)
    (fun _ _ _ _ run all apart taken => reading_step run all apart taken)
    (fun t call none => by cases none) t call here
  have rest : call.rest = .done outcome := by
    unfold StatusCall.returned at returned
    split at returned
    · rename_i there
      obtain rfl := Option.some.inj returned
      exact there
    · cases returned
  have begun : call.log ≠ [] := by
    intro empty
    have whole : call.rest = handleStatus := leads_nil (empty ▸ reading.leads)
    cases rest.symm.trans whole
  obtain ⟨bs, cs, v, split, before, under, settled, eq⟩ := reading.shows begun
  rw [rest] at eq
  refine ⟨bs, cs, v, split, before, under, eq, fun stopped => ?_⟩
  rw [← settled stopped]
  exact eq

/-- The step is one of the server. -/
def isServer : Action S → Bool
  | .server _ => true
  | .status _ | .read _ => false

/-- Before the first status call. -/
private theorem unwatched_step (none : ∀ t, w.calls t = none) (server : isServer a = true)
    (taken : w.step a = some w') : ∀ t, w'.calls t = Option.none := by
  cases a with
  | server b =>
    obtain ⟨s, -, rfl⟩ := Option.map_eq_some_iff.mp taken
    exact none
  | status | read => cases server

private theorem servers_run {P : Watched S → Action S → Prop} {actions : List (System.Action S)}
    (run : Run Watched.step P Watched.new (actions.map .server) w) :
    Run Watched.step (fun _ a => isServer a = true) Watched.new (actions.map .server) w :=
  run.restrict fun a mem _ => by
    obtain ⟨b, -, rfl⟩ := List.mem_map.mp mem
    rfl

private theorem unwatched_run {P : Watched S → Action S → Prop} {actions : List (System.Action S)}
    (run : Run Watched.step P Watched.new (actions.map .server) w) (t : Nat) :
    w.calls t = none :=
  (servers_run run).keeps (I := fun w => ∀ t, w.calls t = none)
    (fun _ _ _ none server taken => unwatched_step none server taken) (fun _ => rfl) t

/-- Writes come in the way of no call while there is none. -/
private theorem apart_of_servers {P : Watched S → Action S → Prop}
    {actions : List (System.Action S)}
    (run : Run Watched.step P Watched.new (actions.map .server) w) :
    Run Watched.step Apart Watched.new (actions.map .server) w := by
  refine (servers_run run).strengthen (I := fun w => ∀ t, w.calls t = none)
    (fun _ _ _ none server taken => unwatched_step none server taken) ?_ fun _ => rfl
  intro w a w' none server taken
  refine ⟨fun b _ t call there => ?_, fun t eq => ?_⟩
  · cases (none t).symm.trans there
  · rw [eq] at server
    cases server

/-- While only status calls take steps. -/
private theorem still_step (still : w.server = v.server ∧ w.stop = v.stop)
    (reads : isServer a = false) (taken : w.step a = some w') :
    w'.server = v.server ∧ w'.stop = v.stop := by
  cases a with
  | server => cases reads
  | status t =>
    simp only [Watched.step] at taken
    split at taken
    · obtain rfl := Option.some.inj taken
      exact still
    · cases taken
  | read t =>
    obtain ⟨call, -, rest⟩ := Option.bind_eq_some_iff.mp taken
    obtain ⟨call', -, rfl⟩ := Option.map_eq_some_iff.mp rest
    exact still

private theorem still_run (run : Run Watched.step (fun _ a => isServer a = false) v as w) :
    w.server = v.server ∧ w.stop = v.stop :=
  run.keeps (I := fun w => w.server = v.server ∧ w.stop = v.stop)
    (fun _ _ _ still reads taken => still_step still reads taken) ⟨rfl, rfl⟩

/-- A call that has begun does not read the state again. -/
private theorem begun_uses {log : List ((q : Accessor) × q.Result)} {rest : Reads ToolOutcome}
    (leads : Program.Leads handleStatus log rest) : log = [] ∨ ¬ rest.Uses .state := by
  induction leads with
  | start => exact .inl rfl
  | @next log q rest before r ih =>
    refine .inr ?_
    rcases ih with rfl | unused
    · have first : Program.op q rest = Program.op Accessor.state _ := leads_nil before
      cases first
      cases (r : State) <;> simp [access, Program.perform, Program.Uses, Bind.bind, Pure.pure,
        Program.bind]
    · exact fun uses => unused (.inr ⟨r, uses⟩)

/-- Every call has read along the handler, whatever the writes. -/
private theorem leads_step
    (all : ∀ t call, w.calls t = some call → Program.Leads handleStatus call.log call.rest)
    (taken : w.step a = some w') :
    ∀ t call, w'.calls t = some call → Program.Leads handleStatus call.log call.rest := by
  intro t call there
  rcases calls_cases taken there with
    ⟨b, -, here⟩ | ⟨-, old | rfl | ⟨call₀, -, here, moved⟩⟩
  · exact all t call here
  · exact all t call old
  · exact .start
  · obtain ⟨q, rest, is, rfl⟩ := next_eq moved
    exact .next (is ▸ all t call₀ here) _

/-- A step that writes no field but the state. -/
def StateAlone (w : Watched S) (a : Action S) : Prop :=
  (∀ b, a = .server b → ∀ q, q ≠ .state →
    answer (applyOption w.server.session (stepOperation w.server b)) q =
      answer w.server.session q) ∧
  w.server.session.lastStopped = w.stop

/-- Such writes come in the way of no call that has begun to read. -/
private theorem apart_of_stateAlone (run : Run Watched.step StateAlone v as w)
    (all : ∀ t call, v.calls t = some call → Program.Leads handleStatus call.log call.rest) :
    Run Watched.step Apart v as w := by
  refine run.strengthen
    (I := fun w => ∀ t call, w.calls t = some call →
      Program.Leads handleStatus call.log call.rest)
    (fun _ _ _ all _ taken => leads_step all taken) ?_ all
  intro w a w' all alone taken
  refine ⟨fun b eq t call here begun => .inl fun q uses => alone.1 b eq q ?_,
    fun _ _ _ _ _ _ => alone.2⟩
  rintro rfl
  exact (begun_uses (all t call here)).elim begun fun unused => unused uses

end

/-- A status call that makes all its reads at once. -/
def statusCall : List (Action lldb) := [.status 0, .read 0, .read 0, .read 0, .read 0]

/-- A launch stops at the entry, and a continue at a breakpoint; the state is set, and the stop
is not cached yet. -/
def stopsTwice : List (System.Action lldb) :=
  launchCall 0 true ++ handshake 0 true ++ launchStopped 0 ++
    [.call 1 (.resume ⟨.cont, .ok none, none⟩)] ++ proceed 1 5 ++ [poll 0 1] ++ exchange 0 1 5 ++
    [receive 0 (stoppedEvent "breakpoint"), poll 0 1, .task 1 .reply] ++ proceed 1 1

/-- The reason that a response shows. -/
def stopReason (outcome : ToolOutcome) : Option String :=
  match field "stop_reason" outcome with
  | some (.string reason) => some reason
  | _ => none

/-- A status call between the two writes shows the stop before. -/
theorem status_shows_earlier_stop :
    ¬ ∀ (w : Watched lldb) (as : List (Action lldb)) (t : Nat) (call : StatusCall)
      (outcome : ToolOutcome), Run Watched.step anyStep Watched.new as w →
      w.calls t = some call → call.returned = some outcome →
      ∃ bs cs v, as = bs ++ cs ∧ Run Watched.step anyStep Watched.new bs v ∧ v.underWay t ∧
        v.Snapshot outcome := by
  intro snapshot
  have eval : ((exec Watched.step anyStep (Watched.new : Watched lldb)
      (stopsTwice.map .server)).bind fun w₁ =>
      (exec Watched.step anyStep w₁ statusCall).map fun w =>
        ((w₁.server.session.state,
          stopReason (rendering { w₁.server.session with lastStopped := w₁.stop })),
          ((w.calls 0).bind StatusCall.returned).map stopReason)) =
      some ((.stopped, some "breakpoint"), some (some "entry")) := by
    decide +kernel
  obtain ⟨w₁, first, rest⟩ := Option.bind_eq_some_iff.mp eval
  obtain ⟨w, second, eq⟩ := Option.map_eq_some_iff.mp rest
  obtain ⟨before, after⟩ := Prod.mk.inj eq
  obtain ⟨stopped, breakpoint⟩ := Prod.mk.inj before
  obtain ⟨outcome, is, entry⟩ := Option.map_eq_some_iff.mp after
  obtain ⟨call, here, returned⟩ := Option.bind_eq_some_iff.mp is
  obtain ⟨bs, cs, v, split, run, ⟨call', there, -⟩, shows⟩ :=
    snapshot w _ 0 call outcome ((run_of_exec first).append (run_of_exec second)) here returned
  rcases List.append_eq_append_iff.mp split with ⟨more, rfl, tail⟩ | ⟨more, front, -⟩
  · obtain ⟨m, run₁, run₂⟩ := run.split
    obtain rfl := run₁.last_eq (run_of_exec first)
    have reads := run₂.restrict (Q := fun _ a => isServer a = false) fun a mem _ => by
      have mem : a ∈ statusCall := tail ▸ List.mem_append_left _ mem
      simp only [statusCall, List.mem_cons, List.not_mem_nil, or_false] at mem
      rcases mem with rfl | rfl | rfl | rfl | rfl <;> rfl
    obtain ⟨server, stop⟩ := still_run reads
    have shown := shows.stop (by rw [server]; exact stopped)
    rw [server, stop] at shown
    rw [shown, breakpoint] at entry
    exact absurd entry (by decide)
  · obtain ⟨actions, -, -, rfl, -⟩ := List.map_eq_append_iff.mp front
    cases (unwatched_run run 0).symm.trans there

/-- A launch that stops at the entry. -/
def stopsOnce : List (System.Action lldb) :=
  launchCall 0 true ++ handshake 0 true ++ launchStopped 0

/-- A continue, up to its backend call. -/
def continues : List (System.Action lldb) :=
  [.call 1 (.resume ⟨.cont, .ok none, none⟩)] ++ proceed 1 5

/-- A status call whose first read comes before a continue sets the state running, and whose other
reads come after it. -/
def readsAcross : List (Action lldb) :=
  [.status 0, .read 0] ++ continues.map .server ++ [.read 0, .read 0, .read 0]

/-- No step writes a field but the state, as it can be evaluated. -/
def stateAlone (w : Watched lldb) (a : Action lldb) : Bool :=
  let kept : Bool := match a with
    | .server b =>
      let m' := applyOption w.server.session (stepOperation w.server b)
      m'.program = w.server.session.program ∧ m'.pid = w.server.session.pid ∧
        m'.lastStopped = w.server.session.lastStopped ∧
        m'.exitCode = w.server.session.exitCode
    | .status _ | .read _ => true
  kept && w.server.session.lastStopped = w.stop

private theorem stateAlone_of (w : Watched lldb) (a : Action lldb)
    (alone : stateAlone w a = true) : StateAlone w a := by
  obtain ⟨kept, cached⟩ := Bool.and_eq_true_iff.mp alone
  refine ⟨?_, of_decide_eq_true cached⟩
  rintro b rfl q other
  obtain ⟨program, pid, lastStopped, exitCode⟩ := of_decide_eq_true kept
  cases q with
  | state => exact absurd rfl other
  | program => exact program
  | pid => exact pid
  | lastStopped => exact lastStopped
  | exitCode => exact exitCode

theorem status_snapshot_across : ∃ (w : Watched lldb) (call : StatusCall) (outcome : ToolOutcome),
    Run Watched.step Apart Watched.new (stopsOnce.map .server ++ readsAcross) w ∧
    w.calls 0 = some call ∧ call.returned = some outcome ∧ stopReason outcome = some "entry" ∧
    w.server.session.state = .running ∧
    ∃ bs cs v, stopsOnce.map .server ++ readsAcross = bs ++ cs ∧
      Run Watched.step Apart Watched.new bs v ∧ v.underWay 0 ∧ v.Snapshot outcome := by
  have eval : ((exec Watched.step anyStep (Watched.new : Watched lldb)
      (stopsOnce.map .server)).bind fun w₁ =>
      (exec Watched.step (fun w a => stateAlone w a = true) w₁ readsAcross).map fun w =>
        (w.server.session.state, ((w.calls 0).bind StatusCall.returned).map stopReason)) =
      some (.running, some (some "entry")) := by
    decide +kernel
  obtain ⟨w₁, first, rest⟩ := Option.bind_eq_some_iff.mp eval
  obtain ⟨w, second, eq⟩ := Option.map_eq_some_iff.mp rest
  obtain ⟨running, after⟩ := Prod.mk.inj eq
  obtain ⟨outcome, is, entry⟩ := Option.map_eq_some_iff.mp after
  obtain ⟨call, here, returned⟩ := Option.bind_eq_some_iff.mp is
  have alone : Run Watched.step StateAlone w₁ readsAcross w :=
    (run_of_exec second).weaken stateAlone_of
  have run : Run Watched.step Apart Watched.new (stopsOnce.map .server ++ readsAcross) w :=
    (apart_of_servers (run_of_exec first)).append (apart_of_stateAlone alone fun t call there => by
      cases (unwatched_run (run_of_exec first) t).symm.trans there)
  exact ⟨w, call, outcome, run, here, returned, entry, running, status_snapshot run here returned⟩

end LldbDebugMcp.Server.Status
