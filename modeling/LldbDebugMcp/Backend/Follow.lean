/- module: LldbDebugMcp/Backend/Follow
   source: crates/lldb-backend/src/backend.rs,
   crates/dap-client/src/{client,read_loop,stop_waiter}.rs
   digest: A call that follows its script against an adapter that answers with success. -/

import LldbDebugMcp.Backend.Steps
import LldbDebugMcp.Backend.Script

set_option autoImplicit false
set_option relaxedAutoImplicit false

namespace LldbDebugMcp.Backend.Follow

open LldbDebugMcp.Core.Types
open LldbDebugMcp.Client.Message
open LldbDebugMcp.Client.State
open LldbDebugMcp.Client.ReadLoop
open LldbDebugMcp.Library.Channel
open LldbDebugMcp.Library.Effect
open LldbDebugMcp.Library.Transition
open LldbDebugMcp.Backend
open LldbDebugMcp.Backend.Operations
open LldbDebugMcp.Backend.Script
open LldbDebugMcp.Backend.Adapter
open LldbDebugMcp.Backend.Steps

/-- A new connection on which one call has begun. -/
def begun (pid : Option Int) (program : Dap Reply) : Connection :=
  (Connection.new pid).setCall 0 (some (Fut.new program))

/-- Steps of the one call, whose frames the writer takes, and of an adapter that answers the
requests it has received with success, in any order and between any other messages, and that
sends the initialized event once, at any time after it has received the initialize request. -/
def Cooperative (c : Connection) : Action → Prop
  | .act (.poll _ choice) => ∀ message, choice ≠ .refuse message
  | .act (.receive (.response response)) => response.success = true ∧
    ∃ r ∈ c.link.wire, r.seq = response.requestSeq ∧ r.command = response.command
  | .act (.receive (.event .initialized)) => c.link.shared.fired = false ∧
    ∃ r ∈ c.link.wire, r.command = "initialize"
  | .act .readError => False
  | .start _ _ | .cancel _ | .finish _ => False
  | _ => True

instance (c : Connection) (a : Action) : Decidable (Cooperative c a) :=
  match a with
  | .act (.poll _ choice) =>
    match choice with
    | .go | .accept => .isTrue fun _ h => by cases h
    | .refuse message => .isFalse fun h => h message rfl
  | .act (.receive (.response response)) =>
    inferInstanceAs (Decidable (response.success = true ∧
      ∃ r ∈ c.link.wire, r.seq = response.requestSeq ∧ r.command = response.command))
  | .act (.receive (.event .initialized)) =>
    inferInstanceAs (Decidable (c.link.shared.fired = false ∧
      ∃ r ∈ c.link.wire, r.command = "initialize"))
  | .act .readError | .start _ _ | .cancel _ | .finish _ => .isFalse id
  | .act (.receive (.other _)) | .act (.receive (.event (.stopped _)))
  | .act (.receive (.event (.output _))) | .act (.receive (.event (.exited _)))
  | .act (.receive (.event .terminated)) | .act (.receive (.event .thread))
  | .act (.receive (.event .breakpoint)) | .act (.receive (.event .process))
  | .act (.receive (.event .continued)) | .act (.receive (.event .module))
  | .act (.receive (.event .capabilities)) | .act .proceed | .act .childExit | .act (.stderr _)
  | .pull _ => .isTrue trivial

/-- The outcome that a step hands to the stop waiter. -/
def delivers (c : Connection) : Action → List StopOutcome
  | .act (.receive (.event (.stopped body))) => [.stopped (stopInfoFromEvent body)]
  | .act (.receive (.event (.exited body))) => [.exited (some body.exitCode)]
  | .act .proceed =>
    match c.link.loop with
    | .terminating | .drained => [.terminated]
    | .reading | .cancelled | .stopped => []
  | _ => []

/-- What a waiter sees that was registered before these outcomes. -/
def seen : List StopOutcome → OneShot StopOutcome
  | [] => .empty
  | outcome :: _ => .sent outcome

/-- The requests as the client stamps them. -/
def stamp (rs : List Request) : List Request := rs.mapIdx fun i r => r.setSeq (i + 1)

def requestsOf : List Op → List Request :=
  List.filterMap fun
    | .send request | .sendAsync request => some request
    | _ => none

def isPoll : Action → Bool
  | .act (.poll _ _) => true
  | _ => false

/-- The call is about to register its stop waiter. -/
def Registers (c : Connection) : Prop :=
  ∃ f next, c.calls 0 = some f ∧ f.program = .op .register next

/-- How many polls an operation has had. -/
def spent (f : Fut) : Nat :=
  match f.await with
  | .created | .running => 0
  | .writing _ | .parked _ => 1
  | .awaiting _ => 2

/-- A script that a call can follow: it awaits only what it asked for. -/
structure WellFormed (script : List Op) : Prop where
  plain : ∀ i ∈ script, i ≠ .stderr ∧ i ≠ .takeChild ∧ i ≠ .startKill ∧ i ≠ .waitChild
  reply : ∀ done rest, script = done ++ .recvReply :: rest → ∃ r, .sendAsync r ∈ done
  stop : ∀ done rest, script = done ++ .recvStop :: rest → .register ∈ done
  once : ∀ done rest, script = done ++ .register :: rest → .recvStop ∉ done
  init : ∀ done rest, script = done ++ .waitInitialized :: rest →
    ∃ r, .send r ∈ done ∧ r.command = "initialize"

section

variable {first asked : Request} {script done rest : List Op}

/-- What a script asks for after its first request precedes every reply that it awaits. -/
theorem reply_after_opening
    (place : .send first :: .sendAsync asked :: script = done ++ .recvReply :: rest) :
    ∃ r, .sendAsync r ∈ done := by
  rcases done with _ | ⟨i, _ | ⟨j, done⟩⟩
  · cases place
  · cases place
  · obtain ⟨-, eq⟩ := List.cons.inj place
    obtain ⟨rfl, -⟩ := List.cons.inj eq
    exact ⟨_, List.mem_cons_of_mem _ (List.mem_cons_self ..)⟩

/-- A script that opens with `initialize` sends it before it waits for the event. -/
theorem init_after_opening (opens : first.command = "initialize")
    (place : .send first :: script = done ++ .waitInitialized :: rest) :
    ∃ r, .send r ∈ done ∧ r.command = "initialize" := by
  cases done with
  | nil => cases place
  | cons i done =>
    obtain ⟨rfl, -⟩ := List.cons.inj place
    exact ⟨_, List.mem_cons_self .., opens⟩

end

theorem stamp_concat (rs : List Request) (r : Request) :
    stamp (rs ++ [r]) = stamp rs ++ [r.setSeq (rs.length + 1)] := List.mapIdx_concat

@[simp] theorem length_stamp (rs : List Request) : (stamp rs).length = rs.length :=
  List.length_mapIdx

theorem mem_stamp {rs : List Request} {r : Request} (h : r ∈ stamp rs) :
    ∃ (i : Nat) (lt : i < rs.length), r = rs[i].setSeq (i + 1) := by
  obtain ⟨i, lt, eq⟩ := List.mem_mapIdx.mp h
  exact ⟨i, lt, eq.symm⟩

theorem seq_stamp {rs : List Request} {r : Request} (h : r ∈ stamp rs) :
    1 ≤ r.seq ∧ r.seq ≤ rs.length := by
  obtain ⟨i, lt, rfl⟩ := mem_stamp h
  simp only [Request.setSeq_seq]
  omega

theorem stamp_unique {rs : List Request} {r r' : Request} (h : r ∈ stamp rs) (h' : r' ∈ stamp rs)
    (same : r.seq = r'.seq) : r = r' := by
  obtain ⟨i, lt, rfl⟩ := mem_stamp h
  obtain ⟨j, lt', rfl⟩ := mem_stamp h'
  simp only [Request.setSeq_seq] at same
  obtain rfl : i = j := by omega
  rfl

theorem stamp_prefix (a b : List Request) : stamp a <+: stamp (a ++ b) :=
  ⟨_, List.mapIdx_append.symm⟩

theorem requestsOf_append (a b : List Op) : requestsOf (a ++ b) = requestsOf a ++ requestsOf b :=
  List.filterMap_append ..

private theorem requestsOf_concat {done : List Op} {i : Op} (silent : requestsOf [i] = []) :
    requestsOf (done ++ [i]) = requestsOf done := by
  rw [requestsOf_append, silent, List.append_nil]

section

variable {c c' : Connection} {f f' : Fut} {choice : Choice} {a : Action} {t w : Nat}
  {pid : Option Int} {program : Dap Reply} {script done todo rest : List Op}
  {conclude : Option (Option StopOutcome) → Reply} {heard : Option (Option StopOutcome)}
  {as : List Action}

/-- The request is pending, or a success response to it has come. -/
def Answered (s : Shared) (r : Request) : Prop :=
  (r.seq ∈ s.pending ∧ s.replies r.seq = .empty) ∨
  ∃ response, s.replies r.seq = .sent (.ok (.response response)) ∧ response.success = true ∧
    response.command = r.command

/-- The waiter of the latch is still there, or the latch has fired. -/
def Latch (s : Shared) (w : Nat) : Prop :=
  (s.initialized.slot = some w ∧ s.initialized.chan w = .empty ∧ s.fired = false) ∨
  (s.initialized.chan w ≠ .empty ∧ s.fired = true)

/-- Where the call stands in its script, and what it has written. -/
inductive At (c : Connection) (f : Fut) (done todo : List Op) : Prop where
  | ready (ready : Ready f) (wire : c.link.wire = stamp (requestsOf done))
      (seq : c.link.shared.seq = (requestsOf done).length)
  | writing {request : Request} {rest : List Op}
      (await : f.await = .writing ((requestsOf done).length + 1))
      (next : todo = .send request :: rest ∨ todo = .sendAsync request :: rest)
      (wire : c.link.wire = stamp (requestsOf done))
      (seq : c.link.shared.seq = (requestsOf done).length + 1)
      (pending : c.link.shared.seq ∈ c.link.shared.pending)
      (reply : c.link.shared.replies c.link.shared.seq = .empty)
  | awaiting {request : Request} {rest : List Op}
      (await : f.await = .awaiting ((requestsOf done).length + 1))
      (next : todo = .send request :: rest)
      (wire : c.link.wire = stamp (requestsOf done ++ [request]))
      (seq : c.link.shared.seq = (requestsOf done).length + 1)
  | parked {w : Nat} {rest : List Op} (await : f.await = .parked w)
      (next : todo = .waitInitialized :: rest) (wire : c.link.wire = stamp (requestsOf done))
      (seq : c.link.shared.seq = (requestsOf done).length) (latch : Latch c.link.shared w)

/-- The call registered its stop waiter in the run, when these requests were on the wire, and
these outcomes were handed to the waiter since. -/
def Since (pid : Option Int) (program : Dap Reply) (requests : List Request) (as : List Action)
    (log : List StopOutcome) : Prop :=
  ∃ bs cs m, as = bs ++ .act (.poll 0 .go) :: cs ∧
    Run Connection.step Cooperative (begun pid program) bs m ∧ Registers m ∧
    m.link.wire = stamp requests ∧
    log = emits Connection.step delivers m (.act (.poll 0 .go) :: cs)

/-- The stop waiter `w` was registered in the run, where the script says so, and it sees the
first outcome since. -/
def Heard (pid : Option Int) (program : Dap Reply) (script : List Op) (as : List Action)
    (c : Connection) (w : Nat) (log : List StopOutcome) : Prop :=
  ∃ bs cs m done rest, as = bs ++ .act (.poll 0 .go) :: cs ∧
    Run Connection.step Cooperative (begun pid program) bs m ∧
    Run Connection.step Cooperative m (.act (.poll 0 .go) :: cs) c ∧ Registers m ∧
    script = done ++ .register :: rest ∧ m.link.wire = stamp (requestsOf done) ∧
    log = emits Connection.step delivers m (.act (.poll 0 .go) :: cs) ∧
    c.link.shared.stopWaiter.chan w = seen log ∧ w < c.link.shared.stopWaiter.next ∧
    (c.link.shared.stopWaiter.slot = some w ↔ log = []) ∧
    (log ≠ [] → c.link.shared.stopWaiter.slot = none)

/-- A call on its way through its script. -/
structure Following (pid : Option Int) (program : Dap Reply) (script : List Op)
    (conclude : Option (Option StopOutcome) → Reply) (as : List Action) (c : Connection) (f : Fut)
    (done todo : List Op) (heard : Option (Option StopOutcome)) : Prop where
  split : script = done ++ todo
  here : c.calls 0 = some f
  alone : ∀ t, t ≠ 0 → c.calls t = none
  executes : Executes todo conclude heard f.program
  at_ : At c f done todo
  answered : ∀ r ∈ c.link.wire, Answered c.link.shared r
  rx : (∃ r, .sendAsync r ∈ done) → ∃ r ∈ c.link.wire, f.rx = some r.seq
  fired : .waitInitialized ∈ done → c.link.shared.fired = true
  waiter : .register ∈ done → ∃ w log, f.waiter = some w ∧
    Heard pid program script as c w log ∧
    (.recvStop ∈ done → ∃ o, log.head? = some o ∧ heard = some (some o))
  silent : .recvStop ∉ done → heard = none
  polls : as.countP isPoll ≤ 3 * done.length + spent f

theorem Heard.since {log : List StopOutcome} (heard : Heard pid program script as c w log) :
    ∃ done rest, script = done ++ .register :: rest ∧
      Since pid program (requestsOf done) as log := by
  obtain ⟨bs, cs, m, done, rest, split, before, -, registers, place, wire, eq, -⟩ := heard
  exact ⟨done, rest, place, bs, cs, m, split, before, registers, wire, eq⟩

theorem Heard.chan {log : List StopOutcome} (heard : Heard pid program script as c w log) :
    c.link.shared.stopWaiter.chan w = seen log := by
  obtain ⟨_, _, _, _, _, _, _, _, _, _, _, _, chan, _⟩ := heard
  exact chan

/-- What is next in the script is what the program does next. -/
theorem executes_op {i : Op} {next : i.Result → Dap Reply}
    (executes : Executes todo conclude heard (.op i next)) : ∃ rest, todo = i :: rest ∧
      ∀ r, Program.Safe scriptOk scriptAfter (scriptDone conclude)
        (scriptAfter (some (todo, heard)) i r) (next r) := by
  obtain ⟨head, rest⟩ := executes
  obtain ⟨later, rfl⟩ := List.head?_eq_some_iff.mp head
  exact ⟨later, rfl, rest⟩

theorem executes_at {i : Op} {next : i.Result → Dap Reply}
    (executes : Executes todo conclude heard f.program)
    (at_ : f.program = .op i next) : ∃ rest, todo = i :: rest ∧
      ∀ r, Program.Safe scriptOk scriptAfter (scriptDone conclude)
        (scriptAfter (some (todo, heard)) i r) (next r) := by
  rw [at_] at executes
  exact executes_op executes

/-- The program does what is next in the script, or it is done. -/
theorem executes_cases (executes : Executes todo conclude heard f.program) :
    (todo = [] ∧ f.program = .done (conclude heard)) ∨
    ∃ i rest next, todo = i :: rest ∧ f.program = .op i next := by
  cases at_ : f.program with
  | done reply =>
    rw [at_] at executes
    obtain ⟨rfl, rfl⟩ := executes
    exact .inl ⟨rfl, rfl⟩
  | op i next =>
    obtain ⟨rest, eq, -⟩ := executes_at executes at_
    exact .inr ⟨i, rest, next, eq, rfl⟩

theorem At.wire_le (at_ : At c f done todo) {r : Request} (h : r ∈ c.link.wire) :
    1 ≤ r.seq ∧ r.seq ≤ c.link.shared.seq := by
  cases at_ with
  | ready _ wire seq | writing _ _ wire seq | parked _ _ wire seq =>
    rw [wire] at h
    have bound := seq_stamp h
    omega
  | awaiting _ _ wire seq =>
    rw [wire] at h
    have bound := seq_stamp h
    rw [List.length_append, List.length_singleton] at bound
    omega

theorem At.wire_unique (at_ : At c f done todo) {r r' : Request} (h : r ∈ c.link.wire)
    (h' : r' ∈ c.link.wire) (same : r.seq = r'.seq) : r = r' := by
  cases at_ with
  | ready _ wire | writing _ _ wire | parked _ _ wire | awaiting _ _ wire =>
    rw [wire] at h h'
    exact stamp_unique h h' same

/-! Steps other than polls. -/

private theorem heard_foldl {s : Slot StopOutcome} {log out : List StopOutcome}
    (chan : s.chan w = seen log) (slot : s.slot = some w ↔ log = [])
    (gone : log ≠ [] → s.slot = none) :
    let s' := out.foldl (·.send ·) s
    s'.chan w = seen (log ++ out) ∧ (s'.slot = some w ↔ log ++ out = []) ∧
      (log ++ out ≠ [] → s'.slot = none) ∧ s'.next = s.next := by
  induction out generalizing s log with
  | nil => simpa using ⟨chan, slot, gone⟩
  | cons o out ih =>
    have chan' : (s.send o).chan w = seen (log ++ [o]) := by
      cases log with
      | nil => exact Slot.send_chan_self o (slot.mpr rfl)
      | cons first log =>
        have other : s.slot ≠ some w := by
          rw [gone (List.cons_ne_nil _ _)]
          exact fun h => by cases h
        exact (Slot.send_chan_other o other).trans chan
    have next := ih chan' (by simp) fun _ => Slot.send_slot s o
    simpa using next

/-- What the waiter sees after one more step. -/
private theorem heard_step {log : List StopOutcome} (known : Heard pid program script as c w log)
    (allowed : Cooperative c a) (taken : c.step a = some c')
    (stops : c'.link.shared.stopWaiter = (delivers c a).foldl (·.send ·) c.link.shared.stopWaiter) :
    Heard pid program script (as ++ [a]) c' w (log ++ delivers c a) := by
  obtain ⟨bs, cs, m, done, rest, rfl, before, after, registers, place, wire, rfl, chan, lt, slot,
    gone⟩ := known
  obtain ⟨chan', slot', gone', next⟩ := @heard_foldl w _ _ (delivers c a) chan slot gone
  refine ⟨bs, cs ++ [a], m, done, rest, by simp, before, after.append (.single allowed taken),
    registers, place, wire, (after.emits_concat a).symm, ?_⟩
  rw [stops, next]
  exact ⟨chan', lt, slot', gone'⟩

/-- A step that leaves the calls and the frames alone, and does to the shared state no more than
an adapter does that answers with success. -/
private theorem following_link
    (following : Following pid program script conclude as c f done todo heard)
    (allowed : Cooperative c a) (taken : c.step a = some c') (other : isPoll a = false)
    (calls : c'.calls = c.calls) (wire : c'.link.wire = c.link.wire)
    (seq : c'.link.shared.seq = c.link.shared.seq)
    (answered : ∀ r ∈ c.link.wire, Answered c.link.shared r → Answered c'.link.shared r)
    (writing : (∀ r ∈ c.link.wire, r.seq ≠ c.link.shared.seq) →
      c.link.shared.seq ∈ c.link.shared.pending →
      c.link.shared.replies c.link.shared.seq = .empty →
      c'.link.shared.seq ∈ c'.link.shared.pending ∧
        c'.link.shared.replies c'.link.shared.seq = .empty)
    (latch : ∀ w, Latch c.link.shared w → Latch c'.link.shared w)
    (fired : c.link.shared.fired = true → c'.link.shared.fired = true)
    (stops : c'.link.shared.stopWaiter = (delivers c a).foldl (·.send ·) c.link.shared.stopWaiter) :
    Following pid program script conclude (as ++ [a]) c' f done todo heard where
  split := following.split
  here := (congrFun calls 0).trans following.here
  alone t ne := (congrFun calls t).trans (following.alone t ne)
  executes := following.executes
  at_ := by
    cases following.at_ with
    | ready ready wire' seq' => exact .ready ready (wire.trans wire') (seq.trans seq')
    | writing await next wire' seq' pending reply =>
      have fresh : ∀ r ∈ c.link.wire, r.seq ≠ c.link.shared.seq := by
        intro r h
        rw [wire'] at h
        have bound := seq_stamp h
        omega
      obtain ⟨pending', reply'⟩ := writing fresh pending reply
      exact .writing await next (wire.trans wire') (seq.trans seq') pending' reply'
    | awaiting await next wire' seq' =>
      exact .awaiting await next (wire.trans wire') (seq.trans seq')
    | parked await next wire' seq' latch' =>
      exact .parked await next (wire.trans wire') (seq.trans seq') (latch _ latch')
  answered r h := by
    rw [wire] at h
    exact answered r h (following.answered r h)
  rx asked := by
    rw [wire]
    exact following.rx asked
  fired waited := fired (following.fired waited)
  waiter registered := by
    obtain ⟨w, log, mine, known, told⟩ := following.waiter registered
    refine ⟨w, log ++ delivers c a, mine, heard_step known allowed taken stops, fun waited => ?_⟩
    obtain ⟨o, head, eq⟩ := told waited
    exact ⟨o, by rw [List.head?_append, head]; rfl, eq⟩
  silent := following.silent
  polls := by
    rw [List.countP_append]
    simpa [other] using following.polls

/-! Polls. -/

theorem spent_le (f : Fut) : spent f ≤ 2 := by
  unfold spent
  split <;> omega

private theorem spent_ready (ready : Ready f) : spent f = 0 := by
  rcases ready with h | h <;> simp only [spent, h]

private theorem At.of_ready (at_ : At c f done todo) (ready : Ready f) :
    c.link.wire = stamp (requestsOf done) ∧ c.link.shared.seq = (requestsOf done).length := by
  cases at_ with
  | ready _ wire seq => exact ⟨wire, seq⟩
  | writing await | awaiting await | parked await =>
    rcases ready with h | h <;> (rw [h] at await; cases await)

private theorem At.of_writing (at_ : At c f done todo) {q : Int} (writing : f.await = .writing q) :
    q = (requestsOf done).length + 1 ∧ c.link.wire = stamp (requestsOf done) ∧
      c.link.shared.seq = q ∧ q ∈ c.link.shared.pending ∧ c.link.shared.replies q = .empty := by
  cases at_ with
  | ready ready => rcases ready with h | h <;> (rw [h] at writing; cases writing)
  | writing await _ wire seq pending reply =>
    rw [writing] at await
    obtain rfl : q = (requestsOf done).length + 1 := Await.writing.inj await
    rw [seq] at pending reply
    exact ⟨rfl, wire, seq, pending, reply⟩
  | awaiting await | parked await =>
    rw [await] at writing
    cases writing

private theorem At.of_awaiting (at_ : At c f done todo) {q : Int} {request : Request}
    (awaiting : f.await = .awaiting q) (next : todo = .send request :: rest) :
    q = (requestsOf done).length + 1 ∧ c.link.wire = stamp (requestsOf done ++ [request]) ∧
      c.link.shared.seq = q := by
  cases at_ with
  | ready ready => rcases ready with h | h <;> (rw [h] at awaiting; cases awaiting)
  | awaiting await next' wire seq =>
    rw [awaiting] at await
    obtain rfl : q = (requestsOf done).length + 1 := Await.awaiting.inj await
    rw [next] at next'
    cases next'
    exact ⟨rfl, wire, seq⟩
  | writing await | parked await =>
    rw [await] at awaiting
    cases awaiting

private theorem At.of_parked (at_ : At c f done todo) {w : Nat} (parked : f.await = .parked w) :
    c.link.wire = stamp (requestsOf done) ∧ c.link.shared.seq = (requestsOf done).length ∧
      Latch c.link.shared w := by
  cases at_ with
  | ready ready => rcases ready with h | h <;> (rw [h] at parked; cases parked)
  | parked await _ wire seq latch =>
    rw [parked] at await
    obtain rfl := Await.parked.inj await
    exact ⟨wire, seq, latch⟩
  | writing await | awaiting await =>
    rw [await] at parked
    cases parked

/-- The stop waiter after a poll that has nothing to do with it. -/
private theorem waiter_poll
    (following : Following pid program script conclude as c f done todo heard)
    (allowed : Cooperative c (.act (.poll 0 choice)))
    (taken : c.step (.act (.poll 0 choice)) = some c') (kept : f'.waiter = f.waiter)
    (stops : c'.link.shared.stopWaiter = c.link.shared.stopWaiter) (registered : .register ∈ done) :
    ∃ w log, f'.waiter = some w ∧
      Heard pid program script (as ++ [.act (.poll 0 choice)]) c' w log ∧
      (.recvStop ∈ done → ∃ o, log.head? = some o ∧ heard = some (some o)) := by
  obtain ⟨w, log, mine, known, told⟩ := following.waiter registered
  exact ⟨w, log ++ [], kept.trans mine, heard_step known allowed taken stops, by simpa using told⟩

/-- A poll after which the call is still at the same operation. -/
private theorem following_stays
    (following : Following pid program script conclude as c f done todo heard)
    (allowed : Cooperative c (.act (.poll 0 choice)))
    (taken : c.step (.act (.poll 0 choice)) = some c')
    (calls : c'.calls = Function.update c.calls 0 (some f')) (same : f'.program = f.program)
    (rx : f'.rx = f.rx) (kept : f'.waiter = f.waiter) (at_ : At c' f' done todo)
    (answered : ∀ r ∈ c'.link.wire, Answered c'.link.shared r)
    (wire : ∀ r ∈ c.link.wire, r ∈ c'.link.wire)
    (fired : c'.link.shared.fired = c.link.shared.fired)
    (stops : c'.link.shared.stopWaiter = c.link.shared.stopWaiter)
    (one : spent f' = spent f + 1) :
    Following pid program script conclude (as ++ [.act (.poll 0 choice)]) c' f' done todo
      heard where
  split := following.split
  here := by rw [calls, Function.update_self]
  alone t ne := by
    rw [calls, Function.update_of_ne ne]
    exact following.alone t ne
  executes := by
    rw [same]
    exact following.executes
  at_ := at_
  answered := answered
  rx asked := by
    obtain ⟨r, mem, eq⟩ := following.rx asked
    exact ⟨r, wire r mem, rx.trans eq⟩
  fired waited := fired.trans (following.fired waited)
  waiter := waiter_poll following allowed taken kept stops
  silent := following.silent
  polls := by
    have bound := following.polls
    rw [List.countP_append, one]
    simp only [isPoll, List.countP_singleton, if_true]
    omega

/-- A poll that completes the operation. -/
private theorem following_next {i : Op} {heard' : Option (Option StopOutcome)}
    (following : Following pid program script conclude as c f done (i :: rest) heard)
    (calls : c'.calls = Function.update c.calls 0 (some f'))
    (executes : Executes rest conclude heard' f'.program) (running : f'.await = .running)
    (wire : c'.link.wire = stamp (requestsOf (done ++ [i])))
    (seq : c'.link.shared.seq = (requestsOf (done ++ [i])).length)
    (answered : ∀ r ∈ c'.link.wire, Answered c'.link.shared r)
    (rx : (∃ r, .sendAsync r ∈ done ++ [i]) → ∃ r ∈ c'.link.wire, f'.rx = some r.seq)
    (fired : .waitInitialized ∈ done ++ [i] → c'.link.shared.fired = true)
    (waiter : .register ∈ done ++ [i] → ∃ w log, f'.waiter = some w ∧
      Heard pid program script (as ++ [.act (.poll 0 choice)]) c' w log ∧
      (.recvStop ∈ done ++ [i] → ∃ o, log.head? = some o ∧ heard' = some (some o)))
    (silent : .recvStop ∉ done ++ [i] → heard' = none) :
    Following pid program script conclude (as ++ [.act (.poll 0 choice)]) c' f' (done ++ [i]) rest
      heard' where
  split := by rw [following.split, List.append_assoc, List.singleton_append]
  here := by rw [calls, Function.update_self]
  alone t ne := by
    rw [calls, Function.update_of_ne ne]
    exact following.alone t ne
  executes := executes
  at_ := .ready (.inr running) wire seq
  answered := answered
  rx := rx
  fired := fired
  waiter := waiter
  silent := silent
  polls := by
    have bound := following.polls
    have le := spent_le f
    rw [List.countP_append, List.length_append]
    simp only [isPoll, List.countP_singleton, if_true, List.length_singleton]
    omega

/-- A poll that completes an operation other than the registration and the wait for a stop, and
changes nothing but the future. -/
private theorem following_received {i : Op} {next : i.Result → Dap Reply} {r : i.Result}
    (following : Following pid program script conclude as c f done (i :: rest) heard)
    (allowed : Cooperative c (.act (.poll 0 choice)))
    (taken : c.step (.act (.poll 0 choice)) = some (c.setCall 0 (some (f.goOn (next r)))))
    (after : Executes rest conclude heard (next r))
    (wire : c.link.wire = stamp (requestsOf (done ++ [i])))
    (seq : c.link.shared.seq = (requestsOf (done ++ [i])).length)
    (notAsync : ∀ r, i ≠ .sendAsync r) (notRegister : i ≠ .register) (notStop : i ≠ .recvStop)
    (fired : i = .waitInitialized → c.link.shared.fired = true) :
    Following pid program script conclude (as ++ [.act (.poll 0 choice)])
      (c.setCall 0 (some (f.goOn (next r)))) (f.goOn (next r)) (done ++ [i]) rest heard := by
  have here : ∀ {j : Op}, j ≠ i → j ∈ done ++ [i] → j ∈ done := by
    intro j ne mem
    rcases List.mem_append.mp mem with h | h
    · exact h
    · exact absurd (List.mem_singleton.mp h) ne
  refine following_next following rfl after rfl wire seq following.answered ?_ ?_ ?_ ?_
  · rintro ⟨r, mem⟩
    exact following.rx ⟨r, here (notAsync r).symm mem⟩
  · intro mem
    rcases List.mem_append.mp mem with h | h
    · exact following.fired h
    · exact fired (List.mem_singleton.mp h).symm
  · intro mem
    obtain ⟨w, log, mine, known, told⟩ :=
      @waiter_poll _ _ f (f.goOn (next r)) _ _ _ _ _ _ _ _ _ following allowed taken rfl rfl
        (here notRegister.symm mem)
    exact ⟨w, log, mine, known, fun mem => told (here notStop.symm mem)⟩
  · intro mem
    exact following.silent fun h => mem (List.mem_append_left _ h)

private theorem answered_register (at_ : At c f done todo)
    (answered : ∀ r ∈ c.link.wire, Answered c.link.shared r) :
    ∀ r ∈ c.link.wire, Answered c.link.shared.registerPending.2 r := by
  intro r mem
  have bound := at_.wire_le mem
  have ne : r.seq ≠ c.link.shared.seq + 1 := by omega
  have same : c.link.shared.registerPending.2.replies r.seq = c.link.shared.replies r.seq :=
    Function.update_of_ne ne ..
  unfold Answered
  rw [same]
  exact (answered r mem).imp_left fun h => ⟨Finset.mem_insert_of_mem h.1, h.2⟩

private theorem answered_written {request : Request}
    (answered : ∀ r ∈ c.link.wire, Answered c.link.shared r)
    (pending : request.seq ∈ c.link.shared.pending)
    (reply : c.link.shared.replies request.seq = .empty) :
    ∀ r ∈ c.link.wire ++ [request], Answered c.link.shared r := by
  intro r mem
  rcases List.mem_append.mp mem with old | new
  · exact answered r old
  · obtain rfl := List.mem_singleton.mp new
    exact .inl ⟨pending, reply⟩

/-- The reply to a frame on the wire, once there is one. -/
private theorem Answered.poll {r : Request} {o : Option PendingResult}
    (answered : Answered c.link.shared r)
    (settled : (c.link.shared.replies r.seq).poll = some o) :
    ∃ response, o = some (.ok (.response response)) ∧ response.success = true ∧
      response.command = r.command := by
  rcases answered with ⟨-, empty⟩ | ⟨response, sent, success, command⟩
  · rw [poll_eq_none.mpr empty] at settled
    cases settled
  · rw [sent] at settled
    exact ⟨response, (Option.some.inj settled).symm, success, command⟩

theorem cooperative_go : Cooperative c (.act (.poll t .go)) := fun _ => nofun

/-- A request is registered, and its frame is on its way. -/
private theorem following_registered {request : Request}
    (following : Following pid program script conclude as c f done todo heard)
    (next : todo = .send request :: rest ∨ todo = .sendAsync request :: rest) (ready : Ready f)
    (taken : c.step (.act (.poll 0 .go)) =
      some ((c.setShared c.link.shared.registerPending.2).setCall 0
        (some { f with await := .writing (c.link.shared.seq + 1) }))) :
    Following pid program script conclude (as ++ [.act (.poll 0 .go)])
      ((c.setShared c.link.shared.registerPending.2).setCall
        0 (some { f with await := .writing (c.link.shared.seq + 1) }))
      { f with await := .writing (c.link.shared.seq + 1) } done todo heard := by
  obtain ⟨wire, seq⟩ := following.at_.of_ready ready
  have seq' : c.link.shared.seq + 1 = (requestsOf done).length + 1 := by rw [seq]
  refine following_stays following cooperative_go taken rfl rfl rfl rfl
    (.writing (congrArg Await.writing seq') next wire seq' (Finset.mem_insert_self ..)
      (Function.update_self ..))
    (answered_register following.at_ following.answered) (fun r h => h) rfl rfl ?_
  rw [spent_ready ready]
  rfl

/-- The stop waiter is registered, and hears what comes from now on. -/
private theorem following_register {next : Unit → Dap Reply} (wellFormed : WellFormed script)
    (run : Run Connection.step Cooperative (begun pid program) as c)
    (following : Following pid program script conclude as c f done (.register :: rest) heard)
    (ready : Ready f) (at_ : f.program = .op .register next)
    (after : Executes rest conclude heard (next ()))
    (taken : c.step (.act (.poll 0 .go)) = some ((c.setShared c.link.shared.register.2).setCall 0
      (some { f.goOn (next ()) with waiter := some c.link.shared.stopWaiter.next }))) :
    Following pid program script conclude (as ++ [.act (.poll 0 .go)])
      ((c.setShared c.link.shared.register.2).setCall 0
        (some { f.goOn (next ()) with waiter := some c.link.shared.stopWaiter.next }))
      { f.goOn (next ()) with waiter := some c.link.shared.stopWaiter.next }
      (done ++ [.register]) rest heard := by
  obtain ⟨wire, seq⟩ := following.at_.of_ready ready
  have same : requestsOf (done ++ [.register]) = requestsOf done := requestsOf_concat rfl
  have nothing : emits Connection.step delivers c [.act (.poll 0 .go)] = [] := by
    simp only [emits, delivers, List.nil_append]
    cases c.step (.act (.poll 0 .go)) <;> rfl
  refine following_next following rfl after rfl (by rw [same]; exact wire)
    (by rw [same]; exact seq) following.answered ?_ ?_ ?_ ?_
  · rintro ⟨r, mem⟩
    exact following.rx ⟨r, by simpa using mem⟩
  · intro mem
    exact following.fired (by simpa using mem)
  · intro _
    refine ⟨_, [], rfl, ⟨as, [], c, done, rest, rfl, run, .single cooperative_go taken,
      ⟨f, next, following.here, at_⟩, following.split, wire, nothing.symm,
      Slot.register_chan_self _, Nat.lt_succ_self _, ⟨fun _ => rfl, fun _ => rfl⟩,
      fun ne => absurd rfl ne⟩, fun mem => ?_⟩
    exact absurd (by simpa using mem) (wellFormed.once done rest following.split)
  · intro mem
    exact following.silent fun h => mem (List.mem_append_left _ h)

/-- The stop waiter has heard an outcome, which the call receives. -/
private theorem following_gotStop {next : Option StopOutcome → Dap Reply} {r : Option StopOutcome}
    (wellFormed : WellFormed script)
    (following : Following pid program script conclude as c f done (.recvStop :: rest) heard)
    (ready : Ready f) (waiter : f.waiter = some w)
    (settled : (c.link.shared.stopWaiter.chan w).poll = some r)
    (after : ∀ o, r = some o → Executes rest conclude (some (some o)) (next r))
    (taken : c.step (.act (.poll 0 .go)) = some (c.setCall 0 (some (f.goOn (next r))))) :
    ∃ heard', Following pid program script conclude (as ++ [.act (.poll 0 .go)])
      (c.setCall 0 (some (f.goOn (next r)))) (f.goOn (next r)) (done ++ [.recvStop]) rest
      heard' := by
  obtain ⟨wire, seq⟩ := following.at_.of_ready ready
  have same : requestsOf (done ++ [.recvStop]) = requestsOf done := requestsOf_concat rfl
  obtain ⟨w', log, mine, known, -⟩ :=
    following.waiter (wellFormed.stop done rest following.split)
  obtain rfl : w = w' := Option.some.inj (waiter.symm.trans mine)
  have chan := known.chan
  obtain ⟨o, tail, rfl, rfl⟩ : ∃ o tail, log = o :: tail ∧ r = some o := by
    rw [chan] at settled
    cases log with
    | nil => cases settled
    | cons o tail => exact ⟨o, tail, rfl, (Option.some.inj settled).symm⟩
  have known' := heard_step known cooperative_go taken rfl
  refine ⟨some (some o), following_next following rfl (after o rfl) rfl
    (by rw [same]; exact wire) (by rw [same]; exact seq) following.answered ?_ ?_ ?_ ?_⟩
  · rintro ⟨r, mem⟩
    exact following.rx ⟨r, by simpa using mem⟩
  · intro mem
    exact following.fired (by simpa using mem)
  · intro _
    exact ⟨w, _, mine, known', fun _ => ⟨o, rfl, rfl⟩⟩
  · intro mem
    exact absurd (List.mem_append_right _ (List.mem_singleton_self _)) mem

/-- The future goes on as its script wants, whichever operation it is at. -/
theorem following_poll (wellFormed : WellFormed script)
    (run : Run Connection.step Cooperative (begun pid program) as c)
    (following : Following pid program script conclude as c f done todo heard)
    (allowed : Cooperative c (.act (.poll t choice)))
    (taken : c.step (.act (.poll t choice)) = some c') :
    ∃ f' done' todo' heard', Following pid program script conclude
      (as ++ [.act (.poll t choice)]) c' f' done' todo' heard' := by
  obtain ⟨f₀, f', k, here, advances, rfl⟩ := poll_eq taken
  obtain rfl : t = 0 := by
    by_contra ne
    rw [following.alone t ne] at here
    cases here
  obtain rfl : f = f₀ := Option.some.inj (following.here.symm.trans here)
  have plain : ∀ {i rest}, todo = i :: rest → i ∈ script := by
    rintro i rest rfl
    rw [following.split]
    exact List.mem_append_right _ (List.mem_cons_self ..)
  cases advances with
  | @registered request next ready at_ =>
    obtain ⟨rest, rfl, -⟩ := executes_at following.executes at_
    exact ⟨_, done, _, heard, following_registered following (.inl rfl) ready taken⟩
  | @registeredAsync request next ready at_ =>
    obtain ⟨rest, rfl, -⟩ := executes_at following.executes at_
    exact ⟨_, done, _, heard, following_registered following (.inr rfl) ready taken⟩
  | @latched next ready at_ fired =>
    obtain ⟨rest, rfl, after⟩ := executes_at following.executes at_
    obtain ⟨wire, seq⟩ := following.at_.of_ready ready
    have same : requestsOf (done ++ [.waitInitialized]) = requestsOf done := requestsOf_concat rfl
    exact ⟨_, _, rest, heard, following_received following allowed taken (after ())
      (by rw [same, wire]) (by rw [same, seq]) (by simp) (by simp) (by simp) fun _ => fired⟩
  | @parked next ready at_ unfired =>
    obtain ⟨rest, rfl, -⟩ := executes_at following.executes at_
    obtain ⟨wire, seq⟩ := following.at_.of_ready ready
    have waits : c.link.shared.waitInitialized.2 =
        { c.link.shared with initialized := c.link.shared.initialized.register.2 } := by
      simp only [Shared.waitInitialized, unfired, Bool.false_eq_true, if_false]
    rw [waits] at taken ⊢
    refine ⟨_, done, _, heard, following_stays following allowed taken rfl rfl rfl rfl
      (.parked rfl rfl wire seq (.inl ⟨rfl, Slot.register_chan_self _, unfired⟩))
      following.answered (fun r h => h) rfl rfl ?_⟩
    rw [spent_ready ready]
    rfl
  | @registeredStop next ready at_ =>
    obtain ⟨rest, rfl, after⟩ := executes_at following.executes at_
    exact ⟨_, _, rest, heard,
      following_register wellFormed run following ready at_ (after ()) taken⟩
  | @gotReply next seq r ready at_ rx settled =>
    obtain ⟨rest, rfl, after⟩ := executes_at following.executes at_
    obtain ⟨wire, seq'⟩ := following.at_.of_ready ready
    have same : requestsOf (done ++ [.recvReply]) = requestsOf done := requestsOf_concat rfl
    obtain ⟨request, mem, rx'⟩ := following.rx (wellFormed.reply done rest following.split)
    obtain rfl : seq = request.seq := Option.some.inj (rx.symm.trans rx')
    obtain ⟨response, rfl, success, -⟩ := (following.answered request mem).poll settled
    have after' : Executes rest conclude heard (next (some (.ok (.response response)))) := by
      have given := after (some (.ok (.response response)))
      simp only [scriptAfter, success, if_true] at given
      exact given
    exact ⟨_, _, rest, heard, following_received following allowed taken after'
      (by rw [same, wire]) (by rw [same, seq']) (by simp) (by simp) (by simp) fun h => by cases h⟩
  | @gotStop next w r ready at_ waiter settled =>
    obtain ⟨rest, rfl, after⟩ := executes_at following.executes at_
    obtain ⟨heard', follows⟩ := following_gotStop wellFormed following ready waiter settled
      (fun o eq => eq ▸ after (some o)) taken
    exact ⟨_, _, rest, heard', follows⟩
  | @stderr next ready at_ =>
    obtain ⟨rest, eq, -⟩ := executes_at following.executes at_
    exact absurd rfl (wellFormed.plain _ (plain eq)).1
  | @tookChild next ready at_ =>
    obtain ⟨rest, eq, -⟩ := executes_at following.executes at_
    exact absurd rfl (wellFormed.plain _ (plain eq)).2.1
  | @killed next ready at_ =>
    obtain ⟨rest, eq, -⟩ := executes_at following.executes at_
    exact absurd rfl (wellFormed.plain _ (plain eq)).2.2.1
  | @reaped next ready at_ exited =>
    obtain ⟨rest, eq, -⟩ := executes_at following.executes at_
    exact absurd rfl (wellFormed.plain _ (plain eq)).2.2.2
  | @accepted request next seq writing at_ =>
    obtain ⟨rest, rfl, -⟩ := executes_at following.executes at_
    obtain ⟨rfl, wire, seq', pending, reply⟩ := following.at_.of_writing writing
    have wire' : c.link.wire ++ [request.setSeq ((requestsOf done).length + 1)] =
        stamp (requestsOf done ++ [request]) := by
      rw [wire, stamp_concat]
    refine ⟨_, done, _, heard, following_stays following allowed taken rfl rfl rfl rfl
      (.awaiting rfl rfl wire' seq') (answered_written following.answered pending reply)
      (fun r mem => List.mem_append_left _ mem) rfl rfl (by simp [spent, writing])⟩
  | @acceptedAsync request next seq writing at_ =>
    obtain ⟨rest, rfl, after⟩ := executes_at following.executes at_
    obtain ⟨rfl, wire, seq', pending, reply⟩ := following.at_.of_writing writing
    have same : requestsOf (done ++ [.sendAsync request]) = requestsOf done ++ [request] :=
      requestsOf_append done [.sendAsync request]
    have wire' : c.link.wire ++ [request.setSeq ((requestsOf done).length + 1)] =
        stamp (requestsOf (done ++ [.sendAsync request])) := by
      rw [wire, same, stamp_concat]
    refine ⟨_, _, rest, heard, following_next following rfl (after (.ok ())) rfl wire'
      (seq'.trans (by rw [same, List.length_append]; rfl))
      (answered_written following.answered pending reply) (fun _ => ?_) (fun mem => ?_)
      (fun mem => ?_) fun mem => following.silent fun h => mem (List.mem_append_left _ h)⟩
    · exact ⟨_, List.mem_append_right _ (List.mem_singleton_self _), rfl⟩
    · exact following.fired (by simpa using mem)
    · obtain ⟨w, log, mine, known, told⟩ := waiter_poll following allowed taken
        (show _ = f.waiter from rfl) rfl (by simpa using mem)
      exact ⟨w, log, mine, known, fun mem => told (by simpa using mem)⟩
  | refused | refusedAsync => exact absurd rfl (allowed _)
  | @replied request next seq r awaiting at_ settled =>
    obtain ⟨rest, rfl, after⟩ := executes_at following.executes at_
    obtain ⟨rfl, wire, seq'⟩ := following.at_.of_awaiting awaiting rfl
    have same : requestsOf (done ++ [.send request]) = requestsOf done ++ [request] :=
      requestsOf_append done [.send request]
    have mem : request.setSeq ((requestsOf done).length + 1) ∈ c.link.wire := by
      rw [wire, stamp_concat]
      exact List.mem_append_right _ (List.mem_singleton_self _)
    obtain ⟨response, rfl, success, command⟩ := (following.answered _ mem).poll settled
    have good : succeeds request (.response response) = true := by
      simpa [Script.succeeds, success] using command
    have after' : Executes rest conclude heard (next (.ok (.response response))) := by
      have given := after (.ok (.response response))
      simp only [scriptAfter, good, if_true] at given
      exact given
    exact ⟨_, _, rest, heard, following_received following allowed taken after'
      (by rw [same, wire]) (by rw [same]; simpa using seq') (by simp) (by simp) (by simp)
      fun h => by cases h⟩
  | @woken next w parked at_ settled =>
    obtain ⟨rest, rfl, after⟩ := executes_at following.executes at_
    obtain ⟨wire, seq, latch⟩ := following.at_.of_parked parked
    have same : requestsOf (done ++ [.waitInitialized]) = requestsOf done := requestsOf_concat rfl
    have fired : c.link.shared.fired = true := by
      rcases latch with ⟨-, empty, -⟩ | ⟨-, fired⟩
      · exact absurd empty settled
      · exact fired
    exact ⟨_, _, rest, heard, following_received following allowed taken (after ())
      (by rw [same, wire]) (by rw [same, seq]) (by simp) (by simp) (by simp) fun _ => fired⟩

/-! Whole runs. -/

/-- A step that hands outcomes to the stop waiter, and does nothing else to the shared state. -/
private theorem following_stop {s : Slot StopOutcome}
    (following : Following pid program script conclude as c f done todo heard)
    (allowed : Cooperative c a) (taken : c.step a = some c') (other : isPoll a = false)
    (calls : c'.calls = c.calls) (wire : c'.link.wire = c.link.wire)
    (shared : c'.link.shared = { c.link.shared with stopWaiter := s })
    (stops : s = (delivers c a).foldl (·.send ·) c.link.shared.stopWaiter) :
    Following pid program script conclude (as ++ [a]) c' f done todo heard := by
  apply following_link following allowed taken other calls wire
  all_goals rw [shared]
  · exact fun _ _ h => h
  · exact fun _ h h' => ⟨h, h'⟩
  · exact fun _ h => h
  · exact id
  · exact stops

/-- A step that the shared state does not see. -/
private theorem following_still
    (following : Following pid program script conclude as c f done todo heard)
    (allowed : Cooperative c a) (taken : c.step a = some c') (other : isPoll a = false)
    (calls : c'.calls = c.calls) (wire : c'.link.wire = c.link.wire)
    (shared : c'.link.shared = c.link.shared) (silent : delivers c a = []) :
    Following pid program script conclude (as ++ [a]) c' f done todo heard :=
  following_stop following allowed taken other calls wire shared (by rw [silent]; rfl)

private theorem following_response {response : Response}
    (following : Following pid program script conclude as c f done todo heard)
    (allowed : Cooperative c (.act (.receive (.response response))))
    (taken : c.step (.act (.receive (.response response))) =
      some (c.setLink (c.link.dispatch (.response response)))) :
    Following pid program script conclude (as ++ [.act (.receive (.response response))])
      (c.setLink (c.link.dispatch (.response response))) f done todo heard := by
  have answers := allowed
  obtain ⟨success, asked, onWire, same, command⟩ := answers
  by_cases here : response.requestSeq ∈ c.link.shared.pending
  · have shared : (c.setLink (c.link.dispatch (.response response))).link.shared =
        { c.link.shared with
          pending := c.link.shared.pending.erase response.requestSeq
          replies := Function.update c.link.shared.replies response.requestSeq
            (.sent (.ok (.response response))) } := by
      change (c.link.shared.dispatchResponse response.requestSeq (.response response)).1 = _
      rw [Shared.dispatchResponse, if_pos here]
    apply following_link following allowed taken rfl rfl rfl
    all_goals rw [shared]
    · intro r mem answered
      by_cases mine : r.seq = response.requestSeq
      · obtain rfl := following.at_.wire_unique mem onWire (mine.trans same.symm)
        refine .inr ⟨response, ?_, success, command.symm⟩
        change Function.update c.link.shared.replies _ _ r.seq = _
        rw [mine, Function.update_self]
      · have kept : Function.update c.link.shared.replies response.requestSeq
            (.sent (.ok (.response response))) r.seq = c.link.shared.replies r.seq :=
          Function.update_of_ne mine ..
        refine answered.imp (fun h => ⟨Finset.mem_erase.mpr ⟨mine, h.1⟩, kept.trans h.2⟩) ?_
        rintro ⟨reply, sent, rest⟩
        exact ⟨reply, kept.trans sent, rest⟩
    · intro fresh pending empty
      have ne : c.link.shared.seq ≠ response.requestSeq := by
        rw [← same]
        exact (fresh asked onWire).symm
      exact ⟨Finset.mem_erase.mpr ⟨ne, pending⟩, (Function.update_of_ne ne ..).trans empty⟩
    · exact fun _ h => h
    · exact id
    · rfl
  · have shared : (c.setLink (c.link.dispatch (.response response))).link.shared =
        c.link.shared := by
      change (c.link.shared.dispatchResponse response.requestSeq (.response response)).1 = _
      rw [Shared.dispatchResponse, if_neg here]
    exact following_still following allowed taken rfl rfl rfl shared rfl

private theorem following_initialized
    (following : Following pid program script conclude as c f done todo heard)
    (allowed : Cooperative c (.act (.receive (.event .initialized))))
    (taken : c.step (.act (.receive (.event .initialized))) =
      some (c.setLink (c.link.dispatch (.event .initialized)))) :
    Following pid program script conclude (as ++ [.act (.receive (.event .initialized))])
      (c.setLink (c.link.dispatch (.event .initialized))) f done todo heard := by
  refine following_link following allowed taken rfl rfl rfl rfl (fun _ _ h => h)
    (fun _ h h' => ⟨h, h'⟩) (fun w latch => .inr ⟨?_, rfl⟩) (fun _ => rfl) rfl
  change (c.link.shared.initialized.send ()).chan w ≠ .empty
  by_cases mine : c.link.shared.initialized.slot = some w
  · rw [Slot.send_chan_self _ mine]
    exact fun h => by cases h
  · rw [Slot.send_chan_other _ mine]
    rcases latch with ⟨slot, -⟩ | ⟨settled, -⟩
    · exact absurd slot mine
    · exact settled

/-- What the adapter and the environment do leaves the call on its way. -/
theorem following_other
    (following : Following pid program script conclude as c f done todo heard)
    (allowed : Cooperative c a) (taken : c.step a = some c') (other : isPoll a = false) :
    Following pid program script conclude (as ++ [a]) c' f done todo heard := by
  cases moves_of_step taken with
  | start | cancel | finish | readError => exact absurd allowed id
  | poll => cases other
  | pullOutput | pullTerminated | childExit | stderr =>
    exact following_still following allowed taken rfl rfl rfl rfl rfl
  | @receive message reading =>
    cases message with
    | response response => exact following_response following allowed taken
    | other envelope => exact following_still following allowed taken rfl rfl rfl rfl rfl
    | event event =>
      cases event with
      | initialized => exact following_initialized following allowed taken
      | stopped body | exited body =>
        exact following_stop following allowed taken rfl rfl rfl rfl rfl
      | terminated =>
        exact following_still following allowed taken rfl rfl (fireTerminated_wire c.link)
          (fireTerminated_shared c.link) rfl
      | output | thread | breakpoint | process | continued | module | capabilities =>
        exact following_still following allowed taken rfl rfl rfl rfl rfl
  | @proceed link proceeds =>
    have told : ∀ {link : Link}, c.link.loop = .terminating ∨ c.link.loop = .drained →
        c.step (.act .proceed) = some (c.setLink link) → link.wire = c.link.wire →
        link.shared = c.link.shared.cancel →
        Following pid program script conclude (as ++ [.act .proceed]) (c.setLink link) f done todo
          heard := by
      intro link phase taken wire shared
      refine following_stop following allowed taken rfl rfl wire shared ?_
      rcases phase with phase | phase <;> simp [delivers, phase]
    unfold Link.proceed at proceeds
    cases phase : c.link.loop with
    | reading | stopped =>
      rw [phase] at proceeds
      cases proceeds
    | terminating =>
      rw [phase] at proceeds
      cases proceeds
      exact told (.inl phase) taken rfl rfl
    | drained =>
      rw [phase] at proceeds
      cases proceeds
      exact told (.inr phase) taken rfl rfl
    | cancelled =>
      rw [phase] at proceeds
      cases proceeds
      exact following_still following allowed taken rfl rfl (fireTerminated_wire c.link)
        (fireTerminated_shared c.link) (by simp [delivers, phase])

/-- One step of a run. -/
theorem following_step (wellFormed : WellFormed script)
    (run : Run Connection.step Cooperative (begun pid program) as c)
    (following : Following pid program script conclude as c f done todo heard)
    (allowed : Cooperative c a) (taken : c.step a = some c') :
    ∃ f' done' todo' heard', Following pid program script conclude (as ++ [a]) c' f' done' todo'
      heard' := by
  cases other : isPoll a with
  | false => exact ⟨f, done, todo, heard, following_other following allowed taken other⟩
  | true =>
    cases a with
    | act a =>
      cases a with
      | poll t choice => exact following_poll wellFormed run following allowed taken
      | receive | readError | proceed | childExit | stderr => cases other
    | start | cancel | finish | pull => cases other

/-- A call that has begun is at the beginning of its script. -/
theorem following_begun (executes : Executes script conclude none program) :
    Following pid program script conclude [] (begun pid program) (Fut.new program) [] script
      none where
  split := rfl
  here := by simp [begun, Connection.setCall]
  alone t ne := by simp [begun, Connection.setCall, Connection.new, ne]
  executes := executes
  at_ := .ready (.inl rfl) rfl rfl
  answered r mem := absurd mem List.not_mem_nil
  rx := by simp
  fired mem := absurd mem List.not_mem_nil
  waiter mem := absurd mem List.not_mem_nil
  silent _ := rfl
  polls := Nat.le_refl _

/-- A call follows its script in every run. -/
theorem following_run (wellFormed : WellFormed script)
    (executes : Executes script conclude none program)
    (run : Run Connection.step Cooperative (begun pid program) as c) :
    ∃ f done todo heard, Following pid program script conclude as c f done todo heard := by
  refine run.keeps_history (I := fun as c => ∃ f done todo heard,
    Following pid program script conclude as c f done todo heard) ?_
    ⟨_, _, _, _, following_begun executes⟩
  rintro as s a t run ⟨f, done, todo, heard, following⟩ allowed taken
  exact following_step wellFormed run following allowed taken

/-! What a run that follows a script amounts to. -/

/-- The frames belong to the operations that are done, and to the one whose reply is awaited. -/
theorem Following.wire_eq
    (following : Following pid program script conclude as c f done todo heard) :
    ∃ mid rest, script = done ++ mid ++ rest ∧ c.link.wire = stamp (requestsOf (done ++ mid)) ∧
      (mid = [] ∨ ∃ r, mid = [.send r]) := by
  have split := following.split
  cases following.at_ with
  | ready _ wire | writing _ _ wire | parked _ _ wire =>
    exact ⟨[], todo, by simpa using split, by simpa using wire, .inl rfl⟩
  | @awaiting request rest _ next wire =>
    refine ⟨[.send request], rest, by simpa [next] using split, ?_, .inr ⟨request, rfl⟩⟩
    rw [wire, requestsOf_append]
    rfl

theorem Following.wire_prefix
    (following : Following pid program script conclude as c f done todo heard) :
    c.link.wire <+: stamp (requestsOf script) := by
  obtain ⟨mid, rest, split, wire, -⟩ := following.wire_eq
  rw [wire, split, requestsOf_append (done ++ mid) rest]
  exact stamp_prefix _ _

/-- What comes after the wait for the initialized event is not written before it is over. -/
theorem Following.waits {before after : List Op}
    (following : Following pid program script conclude as c f done todo heard)
    (place : script = before ++ .waitInitialized :: after)
    (written : (requestsOf before).length < c.link.wire.length) : c.link.shared.fired = true := by
  obtain ⟨mid, rest, split, wire, mid_eq⟩ := following.wire_eq
  have waited : .waitInitialized ∈ done ++ mid := by
    rcases List.append_eq_append_iff.mp (split.symm.trans place) with
      ⟨more, rfl, -⟩ | ⟨more, eq, eq'⟩
    · rw [wire, length_stamp, requestsOf_append, List.length_append] at written
      omega
    · cases more with
      | nil =>
        rw [List.append_nil] at eq
        rw [wire, length_stamp, eq] at written
        omega
      | cons i more =>
        obtain ⟨rfl, -⟩ := List.cons.inj eq'
        rw [eq]
        exact List.mem_append_right _ (List.mem_cons_self ..)
  refine following.fired ?_
  rcases mid_eq with rfl | ⟨r, rfl⟩ <;> simpa using waited

/-- An operation that has not begun, and that need not wait, can be polled. -/
private theorem poll_of_enter (here : c.calls 0 = some f) (ready : Ready f)
    (enters : ∃ p, c.enter f = some p) : ∃ c', c.step (.act (.poll 0 .go)) = some c' := by
  obtain ⟨⟨k, f'⟩, eq⟩ := enters
  have advance : c.advance f .go = some (k, f') := by
    unfold Connection.advance
    rcases ready with h | h <;> (rw [h]; exact eq)
  exact ⟨k.setCall 0 (some f'), by simp [Connection.step, Connection.act, Connection.poll, here,
    advance]⟩

private theorem poll_of_advance {p : Connection × Fut} (here : c.calls 0 = some f)
    (advance : c.advance f choice = some p) : ∃ c', c.step (.act (.poll 0 choice)) = some c' :=
  ⟨p.1.setCall 0 (some p.2), by simp [Connection.step, Connection.act, Connection.poll, here,
    advance]⟩

/-- A call is finished once its script is done, with what it concludes from what it heard. -/
theorem Following.finished {reply : Reply}
    (following : Following pid program script conclude as c f done todo heard)
    (finish : c.finish 0 = some (reply, c')) : todo = [] ∧ reply = conclude heard := by
  obtain ⟨f₀, here, ended, -⟩ := finish_eq finish
  obtain rfl : f = f₀ := Option.some.inj (following.here.symm.trans here)
  have executes := following.executes
  rw [ended] at executes
  exact executes

theorem Following.finish {reply : Reply}
    (following : Following pid program script conclude as c f done todo heard)
    (ended : f.program = .done reply) : c.finish 0 = some (reply, c.setCall 0 none) := by
  obtain ⟨program, await, rx, waiter⟩ := f
  change program = .done reply at ended
  subst ended
  simp only [Connection.finish, following.here]

/-- What keeps a call from its next poll: a response, the initialized event or an outcome that
has not come. -/
inductive Waits (pid : Option Int) (program : Dap Reply) (script : List Op) (as : List Action)
    (c : Connection) : Prop where
  | response (r : Request) (onWire : r ∈ c.link.wire) (owed : r.seq ∈ c.link.shared.pending)
  | initialized (owed : c.link.shared.fired = false) (r : Request) (onWire : r ∈ c.link.wire)
      (command : r.command = "initialize")
  | outcome {done rest : List Op} (place : script = done ++ .register :: rest)
      (owed : Since pid program (requestsOf done) as [])

private theorem initialize_written (wellFormed : WellFormed script)
    (following : Following pid program script conclude as c f done (.waitInitialized :: rest) heard)
    (wire : c.link.wire = stamp (requestsOf done)) :
    ∃ r ∈ c.link.wire, r.command = "initialize" := by
  obtain ⟨r, mem, command⟩ := wellFormed.init done rest following.split
  have sent : r ∈ requestsOf done := List.mem_filterMap.mpr ⟨_, mem, rfl⟩
  obtain ⟨i, lt, rfl⟩ := List.getElem_of_mem sent
  refine ⟨(requestsOf done)[i].setSeq (i + 1), ?_, command⟩
  rw [wire]
  exact List.mem_mapIdx.mpr ⟨i, lt, rfl⟩

private theorem answered_cases {r : Request} (answered : Answered c.link.shared r) :
    r.seq ∈ c.link.shared.pending ∨ ∃ o, (c.link.shared.replies r.seq).poll = some o := by
  rcases answered with ⟨pending, -⟩ | ⟨response, sent, -⟩
  · exact .inl pending
  · exact .inr ⟨_, by rw [sent]; rfl⟩

/-- A call that is not done can be polled, unless the adapter owes it something. -/
theorem following_progress (wellFormed : WellFormed script)
    (following : Following pid program script conclude as c f done todo heard) :
    (todo = [] ∧ f.program = .done (conclude heard)) ∨
    (∃ choice c', Cooperative c (.act (.poll 0 choice)) ∧
      c.step (.act (.poll 0 choice)) = some c') ∨
    Waits pid program script as c := by
  rcases executes_cases following.executes with finished | ⟨i, rest, next, rfl, at_⟩
  · exact .inl finished
  refine .inr ?_
  have accept : Cooperative c (.act (.poll 0 .accept)) := fun _ h => by cases h
  have here := following.here
  cases following.at_ with
  | ready ready wire =>
    have enters : (∃ p, c.enter f = some p) → (∃ choice c', Cooperative c (.act (.poll 0 choice)) ∧
        c.step (.act (.poll 0 choice)) = some c') ∨ Waits pid program script as c := fun enters =>
      have ⟨c', taken⟩ := poll_of_enter here ready enters
      .inl ⟨_, c', cooperative_go, taken⟩
    cases i with
    | send request | sendAsync request | register | stderr | takeChild | startKill =>
      exact enters ⟨_, by simp only [Connection.enter, at_]; rfl⟩
    | waitInitialized =>
      refine enters ?_
      simp only [Connection.enter, at_]
      cases c.link.shared.waitInitialized with
      | mk w shared => cases w <;> exact ⟨_, rfl⟩
    | recvReply =>
      obtain ⟨r, mem, rx⟩ := following.rx (wellFormed.reply done rest following.split)
      rcases answered_cases (following.answered r mem) with pending | ⟨o, settled⟩
      · exact .inr (.response r mem pending)
      · exact enters ⟨_, by simp only [Connection.enter, at_, rx, Option.bind_some, settled]; rfl⟩
    | recvStop =>
      obtain ⟨w, log, mine, known, -⟩ :=
        following.waiter (wellFormed.stop done rest following.split)
      cases log with
      | nil =>
        obtain ⟨done', rest', place, since⟩ := known.since
        exact .inr (.outcome place since)
      | cons o log =>
        have chan : c.link.shared.stopWaiter.chan w = .sent o := known.chan
        exact enters ⟨_, by
          simp only [Connection.enter, at_, mine, Option.bind_some, chan, OneShot.poll]; rfl⟩
    | waitChild =>
      have mem : .waitChild ∈ script := by
        rw [following.split]
        exact List.mem_append_right _ (List.mem_cons_self ..)
      exact absurd rfl (wellFormed.plain _ mem).2.2.2
  | writing await next' =>
    refine .inl ⟨.accept, ?_⟩
    have accepts : ∃ p, c.accepted f ((requestsOf done).length + 1) = some p := by
      rcases next' with eq | eq <;>
        (obtain ⟨rfl, -⟩ := List.cons.inj eq
         exact ⟨_, by simp only [Connection.accepted, at_]; rfl⟩)
    obtain ⟨p, eq⟩ := accepts
    obtain ⟨c', taken⟩ := @poll_of_advance c f .accept p here (by
      unfold Connection.advance
      rw [await]
      exact eq)
    exact ⟨c', accept, taken⟩
  | @awaiting request _ await next' wire =>
    obtain ⟨rfl, -⟩ := List.cons.inj next'
    have mem : request.setSeq ((requestsOf done).length + 1) ∈ c.link.wire := by
      rw [wire, stamp_concat]
      exact List.mem_append_right _ (List.mem_singleton_self _)
    rcases answered_cases (following.answered _ mem) with pending | ⟨o, settled⟩
    · exact .inr (.response _ mem pending)
    · obtain ⟨c', taken⟩ :=
        @poll_of_advance c f .go (c, f.goOn (next (o.getD (.error .closed)))) here
        (by
          unfold Connection.advance
          rw [await]
          simp only [Connection.replied, at_]
          exact congrArg (Option.map _) settled)
      exact .inl ⟨.go, c', cooperative_go, taken⟩
  | @parked w _ await next' wire _ latch =>
    obtain ⟨rfl, -⟩ := List.cons.inj next'
    rcases latch with ⟨-, -, unfired⟩ | ⟨settled, -⟩
    · obtain ⟨r, mem, command⟩ := initialize_written wellFormed following wire
      exact .inr (.initialized unfired r mem command)
    · obtain ⟨o, polled⟩ := Option.ne_none_iff_exists'.mp fun h => settled (poll_eq_none.mp h)
      obtain ⟨c', taken⟩ := @poll_of_advance c f .go (c, f.goOn (next ())) here
        (by
          unfold Connection.advance
          rw [await]
          simp only [Connection.woken, at_]
          exact congrArg (Option.map _) polled)
      exact .inl ⟨.go, c', cooperative_go, taken⟩

/-- What the run of a call has come to: its frames, its next step, and its reply. -/
structure Follows (pid : Option Int) (program : Dap Reply) (script : List Op)
    (conclude : Option (Option StopOutcome) → Reply) (as : List Action) (c : Connection) :
    Prop where
  wire : c.link.wire <+: stamp (requestsOf script)
  waits : ∀ before after, script = before ++ .waitInitialized :: after →
    (requestsOf before).length < c.link.wire.length → c.link.shared.fired = true
  bounded : as.countP isPoll ≤ 3 * script.length
  goes_on : (∃ reply, c.finish 0 = some (reply, c.setCall 0 none)) ∨
    (∃ choice c', Cooperative c (.act (.poll 0 choice)) ∧
      c.step (.act (.poll 0 choice)) = some c') ∨
    Waits pid program script as c
  parked : ∀ f next, c.calls 0 = some f → f.program = .op .recvStop next →
    ∃ w done rest log, f.waiter = some w ∧ script = done ++ .register :: rest ∧
      Since pid program (requestsOf done) as log ∧ c.link.shared.stopWaiter.chan w = seen log
  written : ∀ reply c', c.finish 0 = some (reply, c') → c.link.wire = stamp (requestsOf script)
  silent : ∀ reply c', c.finish 0 = some (reply, c') → .recvStop ∉ script → reply = conclude none
  told : ∀ reply c', c.finish 0 = some (reply, c') → .recvStop ∈ script →
    ∃ done rest o log, script = done ++ .register :: rest ∧
      Since pid program (requestsOf done) as (o :: log) ∧ reply = conclude (some (some o))

private theorem Following.written
    (following : Following pid program script conclude as c f done [] heard) :
    c.link.wire = stamp (requestsOf script) := by
  have split := following.split
  rw [List.append_nil] at split
  subst split
  cases following.at_ with
  | ready _ wire => exact wire
  | writing _ next => rcases next with h | h <;> cases h
  | awaiting _ next | parked _ next => cases next

private theorem Following.bounded
    (following : Following pid program script conclude as c f done todo heard) :
    as.countP isPoll ≤ 3 * script.length := by
  have bound := following.polls
  have le := spent_le f
  have split := congrArg List.length following.split
  rw [List.length_append] at split
  cases todo with
  | nil =>
    have idle : spent f = 0 := by
      unfold spent
      cases following.at_ with
      | ready ready => rcases ready with h | h <;> rw [h]
      | writing _ next => rcases next with h | h <;> cases h
      | awaiting _ next | parked _ next => cases next
    omega
  | cons i rest =>
    rw [List.length_cons] at split
    omega

/-- A call follows its script in every run, and is done as soon as the adapter has done its
part. -/
theorem follows (wellFormed : WellFormed script) (executes : Executes script conclude none program)
    (run : Run Connection.step Cooperative (begun pid program) as c) :
    Follows pid program script conclude as c := by
  obtain ⟨f, done, todo, heard, following⟩ := following_run wellFormed executes run
  refine ⟨following.wire_prefix, fun _ _ place => following.waits place,
    following.bounded, ?_, fun f' next here at_ => ?_, fun reply c' finish => ?_,
    fun reply c' finish quiet => ?_, fun reply c' finish waited => ?_⟩
  · rcases following_progress wellFormed following with ⟨-, ended⟩ | more
    · exact .inl ⟨_, following.finish ended⟩
    · exact .inr more
  · obtain rfl : f = f' := Option.some.inj (following.here.symm.trans here)
    obtain ⟨rest, rfl, -⟩ := executes_at following.executes at_
    obtain ⟨w, log, mine, known, -⟩ := following.waiter (wellFormed.stop done rest following.split)
    obtain ⟨done', rest', place, since⟩ := known.since
    exact ⟨w, done', rest', log, mine, place, since, known.chan⟩
  · obtain ⟨rfl, -⟩ := following.finished finish
    exact following.written
  · obtain ⟨rfl, rfl⟩ := following.finished finish
    have split := following.split
    rw [List.append_nil] at split
    rw [following.silent (split ▸ quiet)]
  · obtain ⟨rfl, rfl⟩ := following.finished finish
    have split := following.split
    rw [List.append_nil] at split
    have heardStop : .recvStop ∈ done := split ▸ waited
    obtain ⟨before, after, eq⟩ := List.append_of_mem waited
    have registered : .register ∈ done := by
      rw [← split, eq]
      exact List.mem_append_left _ (wellFormed.stop before after eq)
    obtain ⟨w, log, -, known, told⟩ := following.waiter registered
    obtain ⟨o, head, rfl⟩ := told heardStop
    obtain ⟨rest, rfl⟩ := List.head?_eq_some_iff.mp head
    obtain ⟨done', rest', place, since⟩ := known.since
    exact ⟨done', rest', o, rest, place, since, rfl⟩

end

/-! Schedules. -/

def go : Action := .act (.poll 0 .go)

def write : Action := .act (.poll 0 .accept)

/-- The success response to the request of this seq. -/
def answer (seq : Int) (command : String) : Action :=
  .act (.receive (.response ⟨seq, "response", seq, true, command, "", none⟩))

/-- A request and its response, as `Client::send` makes it. -/
def exchange (seq : Int) (command : String) : List Action := [go, write, answer seq command, go]

end LldbDebugMcp.Backend.Follow
