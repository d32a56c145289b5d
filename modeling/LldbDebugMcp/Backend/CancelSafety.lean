/- module: LldbDebugMcp/Backend/CancelSafety
   source: crates/dap-client/src/client.rs, crates/lldb-backend/src/backend.rs
   digest: When the drop of a request's future leaves its entry in the pending map. -/

import LldbDebugMcp.Backend.Parts
import LldbDebugMcp.Backend.Steps
import LldbDebugMcp.Library.Custody

set_option autoImplicit false
set_option relaxedAutoImplicit false

namespace LldbDebugMcp.Backend.CancelSafety

open LldbDebugMcp.Core.Types
open LldbDebugMcp.Client.Message
open LldbDebugMcp.Client.State
open LldbDebugMcp.Client.ReadLoop
open LldbDebugMcp.Library.Channel
open LldbDebugMcp.Library.Custody
open LldbDebugMcp.Library.Effect
open LldbDebugMcp.Library.Transition
open LldbDebugMcp.Backend.Operations
open LldbDebugMcp.Backend.Adapter
open LldbDebugMcp.Backend.Steps
open LldbDebugMcp.Backend.Parts

/-- The request paths that are made of `send` and `send_async`: the calls of the backend, and
the two functions by themselves. What a bare request comes to is handed on as the reply of a
`pause`. -/
inductive Path where
  | call (call : Call)
  | send (request : Request)
  | sendAsync (request : Request)

/-- The caller of a bare `send_async` awaits the receiver that it gets. -/
def Path.program : Path → Dap Reply
  | .call c => c.program
  | .send request => do
    let reply ← perform (.send request)
    return .pause (reply.map fun _ => ())
  | .sendAsync request => do
    match ← perform (.sendAsync request) with
    | .error e => return .pause (.error e)
    | .ok () =>
      match ← perform .recvReply with
      | some reply => return .pause (reply.map fun _ => ())
      | none => return .pause (.error .closed)

/-- How far `send_and_await_both` is with the initialized event. -/
inductive Latch where
  | unpolled
  | parked (waiter : Nat)
  | done

/-- Where the future of a `send_and_await_both` stands. -/
inductive Both where
  | created (request : Request)
  /-- The request is registered and its frame is being written. -/
  | writing (request : Request) (seq : Int)
  /-- The guard is armed, and the response and the event are awaited in any order. -/
  | awaiting (seq : Int) (response : Option PendingResult) (latch : Latch)

/-- A poll of it. The write of the frame succeeds or fails, and the `select!` polls the two
halves one at a time. -/
inductive Turn where
  | begin
  | accept
  | refuse
  | response
  | latch
  | finish

/-- A connection, and the futures of `send_and_await_both` on it. -/
structure Peers where
  conn : Connection
  both : Nat → Option Both

namespace Peers

def start : Peers := ⟨Connection.new none, fun _ => none⟩

def setConn (s : Peers) (conn : Connection) : Peers := { s with conn := conn }

def setBoth (s : Peers) (t : Nat) (b : Option Both) : Peers :=
  { s with both := Function.update s.both t b }

def shared (s : Peers) : Shared := s.conn.link.shared

def setShared (s : Peers) (shared : Shared) : Peers := s.setConn (s.conn.setShared shared)

/-- One poll of a `send_and_await_both`. It is over when its write fails, which rolls the entry
back, and when both halves are done, which disarms the guard. -/
def turn (s : Peers) (t : Nat) (b : Both) : Turn → Option Peers
  | .begin =>
    match b with
    | .created request =>
      some ((s.setShared s.shared.registerPending.2).setBoth t
        (some (.writing request s.shared.registerPending.1)))
    | _ => none
  | .accept =>
    match b with
    | .writing request seq =>
      some ((s.setConn (s.conn.setLink (s.conn.link.accept (request.setSeq seq)))).setBoth t
        (some (.awaiting seq none .unpolled)))
    | _ => none
  | .refuse =>
    match b with
    | .writing _ seq => some ((s.setShared (s.shared.removePending seq)).setBoth t none)
    | _ => none
  | .response =>
    match b with
    | .awaiting seq none latch =>
      (s.shared.replies seq).poll.map fun r =>
        s.setBoth t (some (.awaiting seq (some (r.getD (.error .closed))) latch))
    | _ => none
  | .latch =>
    match b with
    | .awaiting seq response .unpolled =>
      match s.shared.waitInitialized with
      | (none, _) => some (s.setBoth t (some (.awaiting seq response .done)))
      | (some waiter, shared) =>
        some ((s.setShared shared).setBoth t (some (.awaiting seq response (.parked waiter))))
    | .awaiting seq response (.parked waiter) =>
      (s.shared.initialized.chan waiter).poll.map fun _ =>
        s.setBoth t (some (.awaiting seq response .done))
    | _ => none
  | .finish =>
    match b with
    | .awaiting _ (some _) .done => some (s.setBoth t none)
    | _ => none

/-- The drop of a `send_and_await_both`: only from the end of the write on is the guard armed. -/
def dropBoth (s : Peers) : Both → Peers
  | .awaiting seq _ _ => s.setShared (s.shared.removePending seq)
  | .created _ | .writing _ _ => s

end Peers

/-- What happens on a connection: its futures come, are polled, are dropped and return, and the
read loop, the event stream and the process go on. -/
inductive Act where
  | start (t : Nat) (path : Path)
  | cancel (t : Nat)
  | finish (t : Nat)
  | pull (which : Pull)
  | act (a : Adapter.Act)
  | startBoth (t : Nat) (request : Request)
  | turnBoth (t : Nat) (turn : Turn)
  | dropBoth (t : Nat)

def step (s : Peers) : Act → Option Peers
  | .start t path => (s.conn.step (.start t path.program)).map s.setConn
  | .cancel t => (s.conn.step (.cancel t)).map s.setConn
  | .finish t => (s.conn.step (.finish t)).map s.setConn
  | .pull which => (s.conn.step (.pull which)).map s.setConn
  | .act a => (s.conn.step (.act a)).map s.setConn
  | .startBoth t request =>
    match s.both t with
    | none => some (s.setBoth t (some (.created request)))
    | some _ => none
  | .turnBoth t turn => (s.both t).bind fun b => s.turn t b turn
  | .dropBoth t => (s.both t).map fun b => (s.dropBoth b).setBoth t none

/-! The pending map, and the futures that wait for its entries. -/

/-- The future has a request under the seq: being written, awaited, or with its receiver kept. -/
def awaits (f : Fut) (q : Int) : Prop :=
  f.await = .writing q ∨ f.await = .awaiting q ∨ f.rx = some q

/-- The seq whose entry the drop of the future removes: that of a `send`. -/
def guard (f : Fut) : Option Int :=
  match f.await, f.program with
  | .writing seq, .op (.send _) _ | .awaiting seq, .op (.send _) _ => some seq
  | _, _ => none

namespace Both

def awaits : Both → Int → Prop
  | .created _, _ => False
  | .writing _ seq, q => seq = q
  | .awaiting seq response _, q => seq = q ∧ response.isNone

def guard : Both → Option Int
  | .awaiting seq _ _ => some seq
  | .created _ | .writing _ _ => none

end Both

/-- A future of the one kind or of the other. -/
inductive Owner where
  | call (t : Nat)
  | both (t : Nat)
  deriving DecidableEq

/-- The entries of the pending map, and the live futures that wait for them. -/
def custody (s : Peers) : Keys Owner Int where
  pending q := q ∈ s.shared.pending
  holds
    | .call t, q => ∃ f, s.conn.calls t = some f ∧ awaits f q
    | .both t, q => ∃ b, s.both t = some b ∧ b.awaits q

/-- Every entry of the pending map belongs to a live future. -/
def Waited (s : Peers) : Prop := (custody s).Owned

/-- The future that a step ends: it is dropped, or it returns. -/
def ended : Act → Option Owner
  | .cancel t | .finish t => some (.call t)
  | .dropBoth t => some (.both t)
  | _ => none

/-- The entry that the end of a future removes, if it is there. -/
def removes (s : Peers) : Owner → Option Int
  | .call t => (s.conn.calls t).bind guard
  | .both t => (s.both t).bind Both.guard

/-- A future that is dropped or returns leaves no request pending but one under its guard. -/
def Guarded (s : Peers) (a : Act) : Prop :=
  ∀ owner, ended a = some owner →
    ∀ q ∈ s.shared.pending, (custody s).holds owner q → removes s owner = some q

/-! No path calls `send_async` twice, so no receiver is overwritten. -/

/-- Whether `send_async` has handed out a receiver. -/
def sentAfter : Bool → (i : Op) → i.Result → Bool
  | _, .sendAsync _, .ok () => true
  | g, _, _ => g

def sentOk : Bool → Op → Prop
  | sent, .sendAsync _ => sent = false
  | _, _ => True

private abbrev Once {α : Type} (g : Bool) (p : Dap α) : Prop :=
  Program.Safe sentOk sentAfter (fun _ _ => True) g p

private theorem asks_sent (g : Bool) : Asks sentOk sentAfter g := fun i asks => by
  cases i <;> first | exact asks.elim | exact ⟨trivial, fun _ => by cases g <;> rfl⟩

private abbrev Part {α : Type} (g : Bool) (x : Checked α) : Prop :=
  Program.Yields sentOk sentAfter (fun _ _ => True) (fun _ _ => True) g x

private theorem part_stays {α : Type} {g : Bool} {x : Checked α}
    (stays : Stays sentOk sentAfter g x) : Part g x :=
  stays.mono fun _ r _ => by cases r <;> trivial

private theorem stays_wait : Stays sentOk sentAfter true (liftM (perform .waitInitialized)) :=
  Program.yields_lift ⟨trivial, fun _ => rfl⟩

private theorem stays_register : Stays sentOk sentAfter true (liftM (perform .register)) :=
  Program.yields_lift ⟨trivial, fun _ => rfl⟩

/-- The deferred request, and what comes after it. -/
private theorem part_sendAsync {β : Type} {failure : String} {request : Request}
    {f : Unit → Checked β} (rest : ∀ value, Part true (f value)) :
    Part false (sendAsyncOr failure request >>= f) := by
  refine ⟨rfl, fun r => ?_⟩
  cases r with
  | error e => exact trivial
  | ok value => exact rest value

private theorem part_configured {β : Type} {op failure : String} {rest : Checked β}
    (part : Part true rest) : Part true (do
      let _ ← sendOr "configurationDone failed" Requests.configurationDone
      let message ← recvReplyOr failure
      let _ ← checkResponse op op message
      rest) :=
  yields_configured (asks_sent true) (fun _ => trivial) part

private theorem part_runLaunch (spec : LaunchSpec) : Part false (runLaunch spec) := by
  have free : ∀ e : BackendError, (fun _ _ => True : Bool → BackendError → Prop) true e :=
    fun _ => trivial
  have entry : Part true (awaitEntry spec.stopOnEntry) := by
    unfold awaitEntry
    split
    · refine ⟨trivial, fun r => ?_⟩
      rcases r with _ | (info | code | _) <;> exact trivial
    · exact trivial
  unfold runLaunch
  refine (stays_exchange (asks_sent false)).andThen (fun _ => trivial) fun _ =>
    part_sendAsync fun _ =>
    stays_wait.andThen free fun _ =>
    (stays_flushSource (asks_sent true) _).andThen free fun _ =>
    (stays_flushFunction (asks_sent true) _).andThen free fun _ =>
    (stays_sendOr (asks_sent true) _ _).andThen free fun _ => ?_
  cases registers : spec.stopOnEntry with
  | true =>
    rw [registers] at entry
    exact stays_register.andThen free fun _ => part_configured entry
  | false =>
    rw [registers] at entry
    exact part_configured entry

private theorem part_runAttach (spec : AttachSpec) : Part false (runAttach spec) := by
  have free : ∀ e : BackendError, (fun _ _ => True : Bool → BackendError → Prop) true e :=
    fun _ => trivial
  have attached : Part true awaitAttached := by
    refine ⟨trivial, fun r => ?_⟩
    rcases r with _ | (info | code | _) <;> exact trivial
  unfold runAttach
  exact (stays_exchange (asks_sent false)).andThen (fun _ => trivial) fun _ =>
    part_sendAsync fun _ =>
    stays_wait.andThen free fun _ =>
    (stays_sendOr (asks_sent true) _ _).andThen free fun _ =>
    part_configured (stays_register.andThen free fun _ => attached)

private theorem once_reply {α : Type} {x : Checked α} (part : Part false x)
    (reply : Except BackendError α → Reply) :
    Once false (x.run.bind fun r => .done (reply r)) :=
  Program.Safe.bind part fun _ _ _ => trivial

private theorem once_resume (request : Request) : Part false (resumeAndWait request) := by
  refine ⟨trivial, fun _ => ⟨trivial, fun r => ?_⟩⟩
  cases r with
  | error e => exact trivial
  | ok message =>
    refine ⟨trivial, fun r => ?_⟩
    cases r <;> exact trivial

private theorem once_path (path : Path) : Once false path.program := by
  cases path with
  | call c =>
    cases c with
    | launch spec => exact once_reply (part_runLaunch spec) .launch
    | attach spec => exact once_reply (part_runAttach spec) .attach
    | cont threadId => exact once_reply (once_resume _) .resume
    | step kind threadId gran => exact once_reply (once_resume _) .resume
    | pause => exact once_reply (part_stays (stays_pause (asks_sent false))) .pause
    | disconnect terminate =>
      refine ⟨trivial, fun _ => ⟨trivial, fun taken => ?_⟩⟩
      cases taken with
      | true => exact ⟨trivial, fun _ => ⟨trivial, fun _ => trivial⟩⟩
      | false => exact trivial
  | send request => exact ⟨trivial, fun _ => trivial⟩
  | sendAsync request =>
    refine ⟨rfl, fun r => ?_⟩
    cases r with
    | error e => exact trivial
    | ok value =>
      refine ⟨trivial, fun r => ?_⟩
      cases r <;> exact trivial

/-! What a step does to the pending map. -/

variable {s s' : Peers} {c c' : Connection} {f f' : Fut} {b : Both} {t : Nat}

/-- Entries only leave the map, and the receivers of those that stay see nothing. -/
private structure Settles (before after : Shared) : Prop where
  seq : after.seq = before.seq
  pending : ∀ q ∈ after.pending, q ∈ before.pending
  replies : ∀ q ∈ after.pending, after.replies q = before.replies q

private theorem settles_same {before after : Shared} (seq : after.seq = before.seq)
    (pending : after.pending = before.pending) (replies : after.replies = before.replies) :
    Settles before after :=
  ⟨seq, fun _ h => pending ▸ h, fun _ _ => congrFun replies _⟩

private theorem settles_erase {before after : Shared} {seq : Int} {o : OneShot PendingResult}
    (counter : after.seq = before.seq) (pending : after.pending = before.pending.erase seq)
    (replies : after.replies = Function.update before.replies seq o) : Settles before after where
  seq := counter
  pending q h := by
    rw [pending] at h
    exact Finset.mem_of_mem_erase h
  replies q h := by
    rw [pending] at h
    rw [replies, Function.update_of_ne (Finset.ne_of_mem_erase h)]

private theorem settles_removePending (before : Shared) (seq : Int) :
    Settles before (before.removePending seq) := by
  unfold Shared.removePending
  split
  · exact settles_erase rfl rfl rfl
  · exact settles_same rfl rfl rfl

private theorem mem_removePending (before : Shared) (seq q : Int) :
    q ∈ (before.removePending seq).pending ↔ q ∈ before.pending ∧ seq ≠ q := by
  unfold Shared.removePending
  split
  · exact Finset.mem_erase.trans (and_comm.trans (and_congr_right fun _ => ne_comm))
  · rename_i gone
    exact ⟨fun h => ⟨h, fun same => gone (same ▸ h)⟩, And.left⟩

private theorem settles_waitInitialized (before : Shared) :
    Settles before before.waitInitialized.2 := by
  unfold Shared.waitInitialized
  split <;> exact settles_same rfl rfl rfl

private theorem settles_dispatch (l : Link) (message : DapMessage) :
    Settles l.shared (l.dispatch message).shared := by
  cases message with
  | response response =>
    change Settles l.shared (l.shared.dispatchResponse _ _).1
    unfold Shared.dispatchResponse
    split
    · exact settles_erase rfl rfl rfl
    · exact settles_same rfl rfl rfl
  | event event =>
    cases event with
    | terminated =>
      change Settles l.shared l.fireTerminated.shared
      rw [fireTerminated_shared]
      exact settles_same rfl rfl rfl
    | _ => exact settles_same rfl rfl rfl
  | other envelope => exact settles_same rfl rfl rfl

private theorem settles_proceed {l l' : Link} (proceeds : l.proceed = some l') :
    Settles l.shared l'.shared := by
  unfold Link.proceed at proceeds
  split at proceeds
  · cases proceeds
    exact settles_same rfl rfl rfl
  · cases proceeds
    exact settles_same rfl rfl rfl
  · cases proceeds
    change Settles l.shared l.fireTerminated.shared
    rw [fireTerminated_shared]
    exact settles_same rfl rfl rfl
  · cases proceeds
  · cases proceeds

/-- The rest of the program calls `send_async` only if there is no receiver yet. -/
def Single (f : Fut) : Prop :=
  ∃ g, Program.Safe sentOk sentAfter (fun _ _ => True) g f.program ∧ (g = false → f.rx = none)

/-- What every state keeps. -/
structure Kept (s : Peers) : Prop where
  waiting : ∀ q ∈ s.shared.pending, s.shared.replies q = .empty
  bound : ∀ owner q, (custody s).holds owner q → q ≤ s.shared.seq
  sole : (custody s).Sole
  single : ∀ t f, s.conn.calls t = some f → Single f

/-- What a step does to the pending map and to those who wait: a future ends, a request is
registered, or entries are settled. -/
inductive Effect (s s' : Peers) : Option Owner → Prop where
  | ends {owner : Owner} (keys : Keys.Ends owner (removes s owner) (custody s) (custody s'))
      (settles : Settles s.shared s'.shared) : Effect s s' (some owner)
  | takes {owner : Owner} (keys : Keys.Takes owner (s.shared.seq + 1) (custody s) (custody s'))
      (registers : s'.shared = s.shared.registerPending.2) : Effect s s' none
  | goesOn (keys : Keys.GoesOn (custody s) (custody s')) (settles : Settles s.shared s'.shared) :
      Effect s s' none

private theorem Effect.sole {ended : Option Owner} (effect : Effect s s' ended)
    (sole : (custody s).Sole) : (custody s').Sole := by
  cases effect with
  | ends keys => exact sole.ends keys
  | takes keys => exact sole.takes keys
  | goesOn keys => exact sole.goesOn keys

private theorem Effect.bound {ended : Option Owner} (effect : Effect s s' ended)
    (bound : ∀ owner q, (custody s).holds owner q → q ≤ s.shared.seq) :
    ∀ owner q, (custody s').holds owner q → q ≤ s'.shared.seq := by
  intro owner q holds
  cases effect with
  | @ends gone keys settles =>
    rw [settles.seq]
    by_cases same : owner = gone
    · subst same
      exact absurd holds (keys.gone q)
    · exact bound owner q ((keys.others owner q same).mp holds)
  | takes keys registers =>
    rw [registers]
    rcases (keys.holds owner q).mp holds with old | ⟨-, rfl⟩
    · exact (bound owner q old).trans (Int.le_add_one (Int.le_refl _))
    · exact Int.le_refl _
  | goesOn keys settles =>
    rw [settles.seq]
    exact bound owner q (keys.holds owner q holds)

private theorem Effect.waiting {ended : Option Owner} (effect : Effect s s' ended)
    (waiting : ∀ q ∈ s.shared.pending, s.shared.replies q = .empty) :
    ∀ q ∈ s'.shared.pending, s'.shared.replies q = .empty := by
  have settled : Settles s.shared s'.shared →
      ∀ q ∈ s'.shared.pending, s'.shared.replies q = .empty := fun settles q h => by
    rw [settles.replies q h]
    exact waiting q (settles.pending q h)
  cases effect with
  | ends _ settles => exact settled settles
  | goesOn _ settles => exact settled settles
  | takes _ registers =>
    intro q h
    rw [registers] at h ⊢
    by_cases new : q = s.shared.seq + 1
    · rw [new]
      exact Function.update_self ..
    · change Function.update s.shared.replies _ _ q = _
      rw [Function.update_of_ne new]
      exact waiting q ((Finset.mem_insert.mp h).resolve_left new)

/-! What each step does. -/

private theorem changes_call {slot : Option Fut}
    (calls : s'.conn.calls = Function.update s.conn.calls t slot) (both : s'.both = s.both) :
    Keys.Changes (.call t) (fun q => ∃ f, slot = some f ∧ awaits f q) (custody s) (custody s')
    where
  own q := by
    simp only [custody, calls, Function.update_self]
  others owner q other := by
    cases owner with
    | call u =>
      have apart : u ≠ t := fun same => other (congrArg Owner.call same)
      simp only [custody, calls, Function.update_of_ne apart]
    | both u => simp only [custody, both]

private theorem changes_both {slot : Option Both} (calls : s'.conn.calls = s.conn.calls)
    (both : s'.both = Function.update s.both t slot) :
    Keys.Changes (.both t) (fun q => ∃ b, slot = some b ∧ b.awaits q) (custody s) (custody s')
    where
  own q := by
    simp only [custody, both, Function.update_self]
  others owner q other := by
    cases owner with
    | call u => simp only [custody, calls]
    | both u =>
      have apart : u ≠ t := fun same => other (congrArg Owner.both same)
      simp only [custody, both, Function.update_of_ne apart]

/-- A step that leaves all futures alone. -/
private theorem effect_same (calls : s'.conn.calls = s.conn.calls) (both : s'.both = s.both)
    (settles : Settles s.shared s'.shared) : Effect s s' none := by
  have holds : (custody s').holds = (custody s).holds := by
    simp only [custody, calls, both]
  exact .goesOn ⟨settles.pending, fun i k h => holds ▸ h, fun i k h _ => holds ▸ h⟩ settles

/-- A future goes on, and it stops waiting only for what is settled. -/
private theorem effect_goesOn {k : Connection} (here : s.conn.calls t = some f)
    (calls : k.calls = s.conn.calls) (settles : Settles s.shared k.link.shared)
    (fewer : ∀ q, awaits f' q → awaits f q)
    (kept : ∀ q, awaits f q → q ∈ k.link.shared.pending → awaits f' q) :
    Effect s (s.setConn (k.setCall t (some f'))) none := by
  have changes : Keys.Changes (.call t) (fun q => ∃ g, some f' = some g ∧ awaits g q)
      (custody s) (custody (s.setConn (k.setCall t (some f')))) := by
    refine changes_call ?_ rfl
    change Function.update k.calls t (some f') = _
    rw [calls]
  refine .goesOn (changes.goesOn settles.pending ?_ ?_) settles
  · rintro q ⟨g, same, mine⟩
    obtain rfl := Option.some.inj same
    exact ⟨f, here, fewer q mine⟩
  · rintro q ⟨g, there, mine⟩ pending
    obtain rfl := Option.some.inj (here.symm.trans there)
    exact ⟨f', rfl, kept q mine pending⟩

private theorem awaits_ready (ready : Ready f) {q : Int} : awaits f q ↔ f.rx = some q := by
  rcases ready with at_ | at_ <;> simp [awaits, at_]

private theorem awaits_goOn (f : Fut) (program : Dap Reply) {q : Int} :
    awaits (f.goOn program) q ↔ f.rx = some q := by
  simp [awaits, Fut.goOn]

/-- An operation that is over at once, or a wait that is not for a reply. -/
private theorem effect_ready {k : Connection} (here : s.conn.calls t = some f)
    (calls : k.calls = s.conn.calls) (settles : Settles s.shared k.link.shared)
    (before : ∀ q, awaits f q ↔ f.rx = some q) (after : ∀ q, awaits f' q ↔ f.rx = some q) :
    Effect s (s.setConn (k.setCall t (some f'))) none :=
  effect_goesOn here calls settles (fun q mine => (before q).mpr ((after q).mp mine))
    fun q mine _ => (after q).mpr ((before q).mp mine)

private theorem effect_registered (kept : Kept s) (here : s.conn.calls t = some f)
    (ready : Ready f) :
    Effect s (s.setConn ((s.conn.setShared s.shared.registerPending.2).setCall t
      (some { f with await := .writing (s.shared.seq + 1) }))) none := by
  refine .takes (Keys.Changes.takes (changes_call (t := t) rfl rfl) ?_ ?_ ?_) rfl
  · intro owner holds
    have bound := kept.bound owner _ holds
    omega
  · intro q there
    exact (Finset.mem_insert.mp there).symm
  · intro q
    constructor
    · rintro ⟨g, same, mine⟩
      obtain rfl := Option.some.inj same
      rcases mine with at_ | at_ | rx
      · cases at_
        exact .inr rfl
      · cases at_
      · exact .inl ⟨f, here, (awaits_ready ready).mpr rx⟩
    · rintro (⟨g, there, mine⟩ | rfl)
      · obtain rfl := Option.some.inj (here.symm.trans there)
        exact ⟨_, rfl, .inr (.inr ((awaits_ready ready).mp mine))⟩
      · exact ⟨_, rfl, .inl rfl⟩

private theorem not_pending_of_poll (kept : Kept s) {q : Int} {r : Option PendingResult}
    (settled : (s.shared.replies q).poll = some r) : q ∉ s.shared.pending := by
  intro pending
  rw [kept.waiting q pending] at settled
  cases settled

private theorem effect_poll {choice : Choice} (kept : Kept s) (here : s.conn.calls t = some f)
    (advances : Advances s.conn f choice c' f') :
    Effect s (s.setConn (c'.setCall t (some f'))) none := by
  have same : Settles s.shared s.shared := settles_same rfl rfl rfl
  cases advances with
  | registered ready => exact effect_registered kept here ready
  | registeredAsync ready => exact effect_registered kept here ready
  | latched ready | gotReply ready | gotStop ready | stderr ready | tookChild ready
  | killed ready | reaped ready =>
    exact effect_ready here rfl same (fun q => awaits_ready ready) fun q => awaits_goOn f _
  | parked ready =>
    refine effect_ready here rfl (settles_waitInitialized _) (fun q => awaits_ready ready) ?_
    exact fun q => by simp [awaits]
  | registeredStop ready =>
    refine effect_ready here rfl (settles_same rfl rfl rfl) (fun q => awaits_ready ready) ?_
    exact fun q => by simp [awaits, Fut.goOn]
  | accepted writing =>
    refine effect_goesOn here rfl same ?_ ?_
    · rintro q (at_ | at_ | rx)
      · cases at_
      · cases at_
        exact .inl writing
      · exact .inr (.inr rx)
    · rintro q (at_ | at_ | rx) -
      · rw [writing] at at_
        cases at_
        exact .inr (.inl rfl)
      · rw [writing] at at_
        cases at_
      · exact .inr (.inr rx)
  | acceptedAsync writing at_ =>
    obtain ⟨g, safe, none⟩ := kept.single t f here
    rw [at_] at safe
    have unsent : f.rx = Option.none := none safe.1
    refine effect_goesOn here rfl same ?_ ?_
    · rintro q (at_ | at_ | rx)
      · cases at_
      · cases at_
      · cases rx
        exact .inl writing
    · rintro q (at_ | at_ | rx) -
      · rw [writing] at at_
        cases at_
        exact .inr (.inr rfl)
      · rw [writing] at at_
        cases at_
      · rw [unsent] at rx
        cases rx
  | refused writing | refusedAsync writing =>
    refine effect_goesOn here rfl (settles_removePending _ _) ?_ ?_
    · intro q mine
      exact .inr (.inr ((awaits_goOn f _).mp mine))
    · rintro q (at_ | at_ | rx) pending
      · rw [writing] at at_
        cases at_
        exact absurd rfl ((mem_removePending _ _ _).mp pending).2
      · rw [writing] at at_
        cases at_
      · exact (awaits_goOn f _).mpr rx
  | replied awaiting at_ settled =>
    refine effect_goesOn here rfl same ?_ ?_
    · intro q mine
      exact .inr (.inr ((awaits_goOn f _).mp mine))
    · rintro q (at_ | at_ | rx) pending
      · rw [awaiting] at at_
        cases at_
      · rw [awaiting] at at_
        cases at_
        exact absurd pending (not_pending_of_poll kept settled)
      · exact (awaits_goOn f _).mpr rx
  | woken parked =>
    exact effect_ready here rfl same (fun q => by simp [awaits, parked]) fun q => awaits_goOn f _

private theorem dropFut_shared (c : Connection) (f : Fut) :
    (c.dropFut f).link.shared =
      match guard f with
      | some seq => c.link.shared.removePending seq
      | none => c.link.shared := by
  obtain ⟨program, await, rx, waiter⟩ := f
  cases await <;> rcases program with value | ⟨i, next⟩ <;> first | rfl | cases i <;> rfl

/-- The end of a future of the connection. -/
private theorem effect_ends (here : s.conn.calls t = some f)
    (calls : s'.conn.calls = Function.update s.conn.calls t none) (both : s'.both = s.both)
    (shared : s'.shared = match guard f with
      | some seq => s.shared.removePending seq
      | none => s.shared) : Effect s s' (some (.call t)) := by
  have removed : removes s (.call t) = guard f := by
    simp only [removes, here, Option.bind_some]
  have changes := changes_call calls both
  have gone : Keys.Changes (.call t) (fun _ => False) (custody s) (custody s') :=
    ⟨fun q => (changes.own q).trans (by simp), changes.others⟩
  refine .ends (gone.ends ?_) ?_
  · intro q
    rw [removed]
    change q ∈ s'.shared.pending ↔ q ∈ s.shared.pending ∧ _
    rw [shared]
    cases guard f with
    | none => simp
    | some seq => simpa using mem_removePending s.shared seq q
  · rw [shared]
    cases guard f with
    | none => exact settles_same rfl rfl rfl
    | some seq => exact settles_removePending _ _

/-- A step of the connection. -/
private theorem effect_moves {a : Adapter.Action} (kept : Kept s) (moves : Moves s.conn a c') :
    Effect s (s.setConn c') (match a with
      | .cancel t | .finish t => some (.call t)
      | _ => none) := by
  cases moves with
  | @start t program fresh =>
    refine .goesOn (Keys.Changes.goesOn (changes_call rfl rfl) (fun _ h => h) ?_ ?_)
      (settles_same rfl rfl rfl)
    · rintro q ⟨f, same, mine⟩
      obtain rfl := Option.some.inj same
      simp [awaits, Fut.new] at mine
    · rintro q ⟨f, there, -⟩
      rw [fresh] at there
      cases there
  | @cancel t f here =>
    refine effect_ends here ?_ rfl (dropFut_shared s.conn f)
    change Function.update (s.conn.dropFut f).calls t none = _
    rw [(pollStep_dropFut s.conn f).calls]
  | @finish t f reply here done =>
    have unguarded : guard f = none := by
      unfold guard
      rw [done]
      split
      · rename_i at_
        cases at_
      · rename_i at_
        cases at_
      · rfl
    refine effect_ends here rfl rfl ?_
    rw [unguarded]
    rfl
  | pullOutput | pullTerminated | childExit | stderr =>
    exact effect_same rfl rfl (settles_same rfl rfl rfl)
  | poll here advances => exact effect_poll kept here advances
  | receive => exact effect_same rfl rfl (settles_dispatch _ _)
  | readError =>
    refine effect_same rfl rfl ⟨rfl, ?_, ?_⟩
    · intro q h
      cases Finset.notMem_empty q h
    · intro q h
      cases Finset.notMem_empty q h
  | proceed proceeds => exact effect_same rfl rfl (settles_proceed proceeds)

/-- A `send_and_await_both` goes on, and it stops waiting only for what is settled. -/
private theorem effect_both {k : Peers} {slot : Option Both} (here : s.both t = some b)
    (calls : k.conn.calls = s.conn.calls) (both : k.both = s.both)
    (settles : Settles s.shared k.shared)
    (fewer : ∀ q b', slot = some b' → b'.awaits q → b.awaits q)
    (kept : ∀ q, b.awaits q → q ∈ k.shared.pending → ∃ b', slot = some b' ∧ b'.awaits q) :
    Effect s (k.setBoth t slot) none := by
  have changes : Keys.Changes (.both t) (fun q => ∃ b', slot = some b' ∧ b'.awaits q)
      (custody s) (custody (k.setBoth t slot)) := by
    refine changes_both calls ?_
    change Function.update k.both t slot = _
    rw [both]
  refine .goesOn (changes.goesOn settles.pending ?_ ?_) settles
  · rintro q ⟨b', same, mine⟩
    exact ⟨b, here, fewer q b' same mine⟩
  · rintro q ⟨b', there, mine⟩ pending
    obtain rfl := Option.some.inj (here.symm.trans there)
    exact kept q mine pending

/-- What a poll of a `send_and_await_both` does besides, and where it stands afterwards. -/
private inductive Turns (s : Peers) : Both → Peers → Option Both → Prop where
  | began {request : Request} :
      Turns s (.created request) (s.setShared s.shared.registerPending.2)
        (some (.writing request s.shared.registerPending.1))
  | accepted {request : Request} {seq : Int} :
      Turns s (.writing request seq)
        (s.setConn (s.conn.setLink (s.conn.link.accept (request.setSeq seq))))
        (some (.awaiting seq none .unpolled))
  | refused {request : Request} {seq : Int} :
      Turns s (.writing request seq) (s.setShared (s.shared.removePending seq)) none
  | answered {seq : Int} {latch : Latch} {r : Option PendingResult}
      (settled : (s.shared.replies seq).poll = some r) :
      Turns s (.awaiting seq none latch) s
        (some (.awaiting seq (some (r.getD (.error .closed))) latch))
  | latched {seq : Int} {response : Option PendingResult} {shared : Shared}
      (fired : s.shared.waitInitialized = (none, shared)) :
      Turns s (.awaiting seq response .unpolled) s (some (.awaiting seq response .done))
  | parked {seq : Int} {response : Option PendingResult} {waiter : Nat} {shared : Shared}
      (waits : s.shared.waitInitialized = (some waiter, shared)) :
      Turns s (.awaiting seq response .unpolled) (s.setShared shared)
        (some (.awaiting seq response (.parked waiter)))
  | woken {seq : Int} {response : Option PendingResult} {waiter : Nat} {r : Option Unit}
      (settled : (s.shared.initialized.chan waiter).poll = some r) :
      Turns s (.awaiting seq response (.parked waiter)) s (some (.awaiting seq response .done))
  | finished {seq : Int} {r : PendingResult} : Turns s (.awaiting seq (some r) .done) s none

private theorem turns_of_turn {turn : Turn} (taken : s.turn t b turn = some s') :
    ∃ k slot, Turns s b k slot ∧ s' = k.setBoth t slot := by
  cases turn with
  | begin =>
    cases b with
    | created =>
      cases taken
      exact ⟨_, _, .began, rfl⟩
    | writing | awaiting => cases taken
  | accept =>
    cases b with
    | writing =>
      cases taken
      exact ⟨_, _, .accepted, rfl⟩
    | created | awaiting => cases taken
  | refuse =>
    cases b with
    | writing =>
      cases taken
      exact ⟨_, _, .refused, rfl⟩
    | created | awaiting => cases taken
  | response =>
    cases b with
    | awaiting seq response latch =>
      cases response with
      | none =>
        obtain ⟨r, settled, rfl⟩ := Option.map_eq_some_iff.mp taken
        exact ⟨_, _, .answered settled, rfl⟩
      | some => cases taken
    | created | writing => cases taken
  | latch =>
    cases b with
    | awaiting seq response latch =>
      cases latch with
      | unpolled =>
        simp only [Peers.turn] at taken
        split at taken
        · rename_i fired
          cases taken
          exact ⟨_, _, .latched fired, rfl⟩
        · rename_i waits
          cases taken
          exact ⟨_, _, .parked waits, rfl⟩
      | parked waiter =>
        obtain ⟨r, settled, rfl⟩ := Option.map_eq_some_iff.mp taken
        exact ⟨_, _, .woken settled, rfl⟩
      | done => cases taken
    | created | writing => cases taken
  | finish =>
    cases b with
    | awaiting seq response latch =>
      cases response with
      | none => cases taken
      | some =>
        cases latch with
        | done =>
          cases taken
          exact ⟨_, _, .finished, rfl⟩
        | unpolled | parked => cases taken
    | created | writing => cases taken

private theorem Turns.calls {k : Peers} {slot : Option Both} (turns : Turns s b k slot) :
    k.conn.calls = s.conn.calls := by
  cases turns <;> rfl

/-- A poll of the one half or of the other, while the response is awaited as before. -/
private theorem effect_latch {k : Peers} {seq : Int} {response : Option PendingResult}
    {latch latch' : Latch} (here : s.both t = some (.awaiting seq response latch))
    (calls : k.conn.calls = s.conn.calls) (both : k.both = s.both)
    (settles : Settles s.shared k.shared) :
    Effect s (k.setBoth t (some (.awaiting seq response latch'))) none := by
  refine effect_both here calls both settles ?_ fun q mine _ => ⟨_, rfl, mine⟩
  intro q b' same mine
  obtain rfl := Option.some.inj same
  exact mine

private theorem effect_turn {k : Peers} {slot : Option Both} (kept : Kept s)
    (here : s.both t = some b) (turns : Turns s b k slot) : Effect s (k.setBoth t slot) none := by
  have same : Settles s.shared s.shared := settles_same rfl rfl rfl
  cases turns with
  | began =>
    refine .takes (Keys.Changes.takes (changes_both (t := t) rfl rfl) ?_ ?_ ?_) rfl
    · intro owner holds
      have bound := kept.bound owner _ holds
      omega
    · intro q there
      exact (Finset.mem_insert.mp there).symm
    · intro q
      constructor
      · rintro ⟨b', same, mine⟩
        obtain rfl := Option.some.inj same
        exact .inr mine.symm
      · rintro (⟨b', there, mine⟩ | rfl)
        · obtain rfl := Option.some.inj (here.symm.trans there)
          exact mine.elim
        · exact ⟨_, rfl, rfl⟩
  | accepted =>
    refine effect_both here rfl rfl same ?_ ?_
    · intro q b' same mine
      obtain rfl := Option.some.inj same
      exact mine.1
    · intro q mine _
      exact ⟨_, rfl, mine, rfl⟩
  | refused =>
    refine effect_both here rfl rfl (settles_removePending _ _) (fun q b' none => by cases none) ?_
    rintro q rfl pending
    exact absurd rfl ((mem_removePending _ _ _).mp pending).2
  | answered settled =>
    refine effect_both here rfl rfl same ?_ ?_
    · intro q b' same mine
      obtain rfl := Option.some.inj same
      cases mine.2
    · rintro q ⟨rfl, -⟩ pending
      exact absurd pending (not_pending_of_poll kept settled)
  | latched => exact effect_latch here rfl rfl same
  | parked waits =>
    have settles := settles_waitInitialized s.shared
    rw [waits] at settles
    exact effect_latch here rfl rfl settles
  | woken => exact effect_latch here rfl rfl same
  | finished =>
    refine effect_both here rfl rfl same (fun q b' none => by cases none) ?_
    rintro q ⟨-, none⟩
    cases none

private theorem effect_dropBoth (here : s.both t = some b) :
    Effect s ((s.dropBoth b).setBoth t none) (some (.both t)) := by
  have removed : removes s (.both t) = b.guard := by
    simp only [removes, here, Option.bind_some]
  have ends : ∀ k : Peers, k.conn.calls = s.conn.calls → k.both = s.both →
      (∀ q, q ∈ k.shared.pending ↔ q ∈ s.shared.pending ∧ b.guard ≠ some q) →
      Settles s.shared k.shared → Effect s (k.setBoth t none) (some (.both t)) := by
    intro k calls both pending settles
    have changes : Keys.Changes (.both t) (fun q => ∃ b' : Both, none = some b' ∧ b'.awaits q)
        (custody s) (custody (k.setBoth t none)) := by
      refine changes_both calls ?_
      change Function.update k.both t none = _
      rw [both]
    have gone : Keys.Changes (.both t) (fun _ => False) (custody s)
        (custody (k.setBoth t none)) :=
      ⟨fun q => (changes.own q).trans (by simp), changes.others⟩
    refine .ends (gone.ends fun q => ?_) settles
    rw [removed]
    exact pending q
  cases b with
  | created request =>
    exact ends s rfl rfl (fun q => by simp [Both.guard]) (settles_same rfl rfl rfl)
  | writing request seq =>
    exact ends s rfl rfl (fun q => by simp [Both.guard]) (settles_same rfl rfl rfl)
  | awaiting seq response latch =>
    refine ends (s.setShared (s.shared.removePending seq)) rfl rfl (fun q => ?_)
      (settles_removePending _ _)
    change q ∈ (s.shared.removePending seq).pending ↔ _
    simpa [Both.guard] using mem_removePending s.shared seq q

/-- What any step does. -/
theorem effect_of_step {a : Act} (kept : Kept s) (taken : step s a = some s') :
    Effect s s' (ended a) := by
  cases a with
  | start t path =>
    obtain ⟨c', moved, rfl⟩ := Option.map_eq_some_iff.mp taken
    exact effect_moves kept (moves_of_step moved)
  | cancel t =>
    obtain ⟨c', moved, rfl⟩ := Option.map_eq_some_iff.mp taken
    exact effect_moves kept (moves_of_step moved)
  | finish t =>
    obtain ⟨c', moved, rfl⟩ := Option.map_eq_some_iff.mp taken
    exact effect_moves kept (moves_of_step moved)
  | pull which =>
    obtain ⟨c', moved, rfl⟩ := Option.map_eq_some_iff.mp taken
    exact effect_moves kept (moves_of_step moved)
  | act a =>
    obtain ⟨c', moved, rfl⟩ := Option.map_eq_some_iff.mp taken
    exact effect_moves kept (moves_of_step moved)
  | startBoth t request =>
    simp only [step] at taken
    split at taken
    · rename_i fresh
      cases taken
      refine .goesOn (Keys.Changes.goesOn (changes_both rfl rfl) (fun _ h => h) ?_ ?_)
        (settles_same rfl rfl rfl)
      · rintro q ⟨b, same, mine⟩
        obtain rfl := Option.some.inj same
        exact mine.elim
      · rintro q ⟨b, there, -⟩
        rw [fresh] at there
        cases there
    · cases taken
  | turnBoth t turn =>
    obtain ⟨b, here, turned⟩ := Option.bind_eq_some_iff.mp taken
    obtain ⟨k, slot, turns, rfl⟩ := turns_of_turn turned
    exact effect_turn kept here turns
  | dropBoth t =>
    obtain ⟨b, here, rfl⟩ := Option.map_eq_some_iff.mp taken
    exact effect_dropBoth here

private theorem single_advances {choice : Choice} (single : Single f)
    (advances : Advances c f choice c' f') : Single f' := by
  obtain ⟨g, safe, none⟩ := single
  cases advances with
  | registered | registeredAsync | parked | accepted => exact ⟨g, safe, none⟩
  | latched _ at_ | gotReply _ at_ | gotStop _ at_ | stderr _ at_ | tookChild _ at_
  | killed _ at_ | reaped _ at_ | registeredStop _ at_ | refused _ at_ | refusedAsync _ at_
  | replied _ at_ | woken _ at_ =>
    rw [at_] at safe
    exact ⟨_, safe.2 _, none⟩
  | acceptedAsync _ at_ =>
    rw [at_] at safe
    exact ⟨true, safe.2 (.ok ()), fun absent => by cases absent⟩

/-- What a future begins with and keeps when it is polled. -/
private theorem calls_moves {J : Nat → Fut → Prop} {a : Adapter.Action}
    (begins : ∀ t program, a = .start t program → J t (Fut.new program))
    (polled : ∀ t f choice k f', J t f → Advances c f choice k f' → J t f')
    (all : ∀ t f, c.calls t = some f → J t f) (moves : Moves c a c') :
    ∀ t f, c'.calls t = some f → J t f := by
  have update : ∀ {k : Connection} {t : Nat} {slot : Option Fut}, k.calls = c.calls →
      (∀ f, slot = some f → J t f) →
      ∀ u f, (k.setCall t slot).calls u = some f → J u f := by
    intro k t slot calls mine u f there
    change Function.update k.calls t slot u = some f at there
    by_cases same : u = t
    · subst same
      rw [Function.update_self] at there
      exact mine f there
    · rw [Function.update_of_ne same, calls] at there
      exact all u f there
  cases moves with
  | @start t program =>
    refine update rfl fun f same => ?_
    obtain rfl := Option.some.inj same
    exact begins t program rfl
  | @cancel t f => exact update (pollStep_dropFut c f).calls fun f none => by cases none
  | finish => exact update rfl fun f none => by cases none
  | @poll t choice f f' k here advances =>
    refine update (pollStep_of_advances advances).calls fun g same => ?_
    obtain rfl := Option.some.inj same
    exact polled t f choice k f' (all t f here) advances
  | pullOutput | pullTerminated | receive | readError | proceed | childExit | stderr => exact all

private theorem calls_step {J : Nat → Fut → Prop} {a : Act}
    (begins : ∀ t path, a = .start t path → J t (Fut.new path.program))
    (polled : ∀ t f choice k f', J t f → Advances s.conn f choice k f' → J t f')
    (all : ∀ t f, s.conn.calls t = some f → J t f) (taken : step s a = some s') :
    ∀ t f, s'.conn.calls t = some f → J t f := by
  cases a with
  | start t path =>
    obtain ⟨c', moved, rfl⟩ := Option.map_eq_some_iff.mp taken
    refine calls_moves ?_ polled all (moves_of_step moved)
    rintro u program same
    cases same
    exact begins t path rfl
  | cancel t | finish t | pull which | act a =>
    obtain ⟨c', moved, rfl⟩ := Option.map_eq_some_iff.mp taken
    exact calls_moves (fun u program same => by cases same) polled all (moves_of_step moved)
  | startBoth t request =>
    simp only [step] at taken
    split at taken
    · cases taken
      exact all
    · cases taken
  | turnBoth t turn =>
    obtain ⟨b, -, turned⟩ := Option.bind_eq_some_iff.mp taken
    obtain ⟨k, slot, turns, rfl⟩ := turns_of_turn turned
    intro u f there
    exact all u f (turns.calls ▸ there)
  | dropBoth t =>
    obtain ⟨b, -, rfl⟩ := Option.map_eq_some_iff.mp taken
    cases b <;> exact all

theorem kept_start : Kept Peers.start where
  waiting q h := by cases Finset.notMem_empty q h
  bound owner q h := by cases owner <;> obtain ⟨_, none, -⟩ := h <;> cases none
  sole i j q h := by cases i <;> obtain ⟨_, none, -⟩ := h <;> cases none
  single t f h := by cases h

theorem Kept.step {a : Act} (kept : Kept s) (taken : step s a = some s') : Kept s' :=
  have effect := effect_of_step kept taken
  ⟨effect.waiting kept.waiting, effect.bound kept.bound, effect.sole kept.sole,
    calls_step (fun _ path _ => ⟨false, once_path path, fun _ => rfl⟩)
      (fun _ _ _ _ _ single advances => single_advances single advances) kept.single taken⟩

/-- A step leaves an entry without a future exactly when it ends one that has a request pending
without a guard. -/
theorem waited_step_iff {a : Act} (kept : Kept s) (waited : Waited s)
    (taken : step s a = some s') : Waited s' ↔ Guarded s a := by
  have effect := effect_of_step kept taken
  unfold Guarded
  cases ending : ended a with
  | none =>
    rw [ending] at effect
    have after : Waited s' := by
      cases effect with
      | takes keys => exact waited.takes keys
      | goesOn keys => exact waited.goesOn keys
    exact ⟨fun _ owner none => (by cases none), fun _ => after⟩
  | some owner =>
    rw [ending] at effect
    cases effect with
    | ends keys =>
      refine (waited.ends_iff kept.sole keys).trans ⟨?_, fun guarded => guarded owner rfl⟩
      intro guarded owner' same
      obtain rfl := Option.some.inj same
      exact guarded

/-- In a run, every entry of the pending map belongs to a live future in every state exactly
when no step ends a future that has a request pending without a guard. -/
theorem pending_waited_iff {as : List Act} (run : Run step anyStep Peers.start as s) :
    Throughout step Waited Peers.start as s ↔ Run step Guarded Peers.start as s :=
  run.throughout_iff (J := Kept) (fun _ _ _ kept _ taken => kept.step taken)
    (fun _ _ _ kept waited _ taken => waited_step_iff kept waited taken) kept_start
    fun q h => by cases Finset.notMem_empty q h

/-- A `send` that is dropped while its frame is written takes its entry along. -/
theorem pending_waited_iff_send :
    ∃ s, Run step anyStep Peers.start
        [.start 0 (.send (Request.new "pause" none)), .act (.poll 0 .go), .cancel 0] s ∧
      (Throughout step Waited Peers.start
          [.start 0 (.send (Request.new "pause" none)), .act (.poll 0 .go), .cancel 0] s ↔
        Run step Guarded Peers.start
          [.start 0 (.send (Request.new "pause" none)), .act (.poll 0 .go), .cancel 0] s) := by
  have run : Run step anyStep Peers.start
      [.start 0 (.send (Request.new "pause" none)), .act (.poll 0 .go), .cancel 0] _ :=
    .cons trivial rfl (.cons trivial rfl (.cons trivial rfl (.nil _)))
  exact ⟨_, run, pending_waited_iff run⟩

/-- The only future that begins is the first of the connection. -/
private def beginsFirst : Act → Bool
  | .start t _ => t == 0
  | .startBoth _ _ => false
  | _ => true

private theorem only_first {as : List Act} (run : Run step anyStep Peers.start as s)
    (first : as.all beginsFirst = true) :
    (∀ t f, s.conn.calls t = some f → t = 0) ∧ ∀ t, s.both t = none := by
  have restricted : Run step (fun _ a => beginsFirst a = true) Peers.start as s :=
    run.restrict fun a mem _ => List.all_eq_true.mp first a mem
  refine restricted.keeps
    (I := fun s => (∀ t f, s.conn.calls t = some f → t = 0) ∧ ∀ t, s.both t = none) ?_
    ⟨fun t f none => (by cases none), fun _ => rfl⟩
  rintro s a s' ⟨calls, both⟩ begins taken
  refine ⟨calls_step (J := fun t _ => t = 0) ?_ (fun _ _ _ _ _ zero _ => zero) calls taken, ?_⟩
  · rintro t path rfl
    exact beq_iff_eq.mp begins
  · cases a with
    | start t path | cancel t | finish t | pull which | act a =>
      obtain ⟨c', -, rfl⟩ := Option.map_eq_some_iff.mp taken
      exact both
    | startBoth t request => cases begins
    | turnBoth t turn | dropBoth t => simp [step, both] at taken

/-- A launch is dropped while it writes its launch request. -/
private def launchDropped : List Act :=
  [.start 0 (.call (.launch ⟨"/bin/a", [], none, [], false, [], []⟩)), .act (.poll 0 .go),
    .act (.poll 0 .accept),
    .act (.receive (.response ⟨1, "response", 1, true, "initialize", "", none⟩)),
    .act (.poll 0 .go), .act (.poll 0 .go), .cancel 0]

/-- The entry of its request is left behind. -/
theorem launch_leaves_entry :
    ∃ s, Run step anyStep Peers.start launchDropped s ∧ ¬ Waited s := by
  have observed : ((exec step anyStep Peers.start launchDropped).map fun s =>
      decide (2 ∈ s.shared.pending) && (s.conn.calls 0).isNone) = some true := by
    decide +kernel
  obtain ⟨s, reached, left⟩ := Option.map_eq_some_iff.mp observed
  have run := run_of_exec reached
  obtain ⟨pending, gone⟩ := Bool.and_eq_true_iff.mp left
  obtain ⟨first, none⟩ := only_first run rfl
  refine ⟨s, run, fun waited => ?_⟩
  have left : 2 ∈ s.shared.pending := of_decide_eq_true pending
  obtain ⟨owner, holds⟩ := waited 2 left
  cases owner with
  | call t =>
    obtain ⟨f, there, -⟩ := holds
    obtain rfl := first t f there
    rw [there] at gone
    cases gone
  | both t =>
    obtain ⟨b, there, -⟩ := holds
    rw [none t] at there
    cases there

end LldbDebugMcp.Backend.CancelSafety
