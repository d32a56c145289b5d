/- module: LldbDebugMcp/Client/Correlation
   source: crates/dap-client/src/{client,read_loop}.rs
   digest: Concurrent sends at the grain of single lock acquisitions, and who gets which reply. -/

import Mathlib.Logic.Relation
import LldbDebugMcp.Client.State
import LldbDebugMcp.Library.Transition

set_option autoImplicit false
set_option relaxedAutoImplicit false

namespace LldbDebugMcp.Client.Correlation

open LldbDebugMcp.Core.Types
open LldbDebugMcp.Client.Message
open LldbDebugMcp.Client.State
open LldbDebugMcp.Library.Channel
open LldbDebugMcp.Library.Transition

/-- `Client::send` awaits the reply under an abort guard; `Client::send_async` hands its
receiver over once the frame is written. -/
inductive Kind where
  | send
  | sendAsync
  deriving DecidableEq

/-- How far a call has come. -/
inductive Stage where
  /-- The future is not polled yet. -/
  | created
  /-- A seq is assigned and stamped on the request. -/
  | stamped (seq : Int)
  /-- The entry is registered, the guard is armed, and the frame is being written. -/
  | writing (seq : Int)
  /-- The write has failed, and the entry is removed next. -/
  | failed (seq : Int) (message : String)
  | awaiting (seq : Int)
  /-- The future is being dropped, and the guard removes the entry next. -/
  | aborting (seq : Int)
  | returned (seq : Int) (result : PendingResult)
  | dropped (seq : Option Int)
  /-- A `send_async` that is over, with its entry left behind. -/
  | left (seq : Int)

namespace Stage

/-- The seq that the call has stamped on its request. -/
def seq : Stage → Option Int
  | .created => none
  | .stamped q | .writing q | .failed q _ | .awaiting q | .aborting q | .returned q _ | .left q =>
    some q
  | .dropped q => q

/-- The seq under which the call has registered its sender. -/
def registered : Stage → Option Int
  | .created | .stamped _ => none
  | .writing q | .failed q _ | .awaiting q | .aborting q | .returned q _ | .left q => some q
  | .dropped q => q

/-- The seq whose entry may still be in the map. -/
def waits : Stage → Option Int
  | .writing q | .failed q _ | .awaiting q | .aborting q | .left q => some q
  | .created | .stamped _ | .returned _ _ | .dropped _ => none

/-- The seq of a call that is over. -/
def finished : Stage → Option Int
  | .returned q _ | .left q => some q
  | .dropped q => q
  | .created | .stamped _ | .writing _ | .failed _ _ | .awaiting _ | .aborting _ => none

end Stage

structure Call where
  kind : Kind
  stage : Stage

/-- What the calls share. Channels are named by the call that made them: `sender` says whose
sender the map holds (or last held) under a key, `hand` which senders were taken out of the map
and are about to send what, and `chan` what each receiver sees. -/
structure Table where
  seq : Int
  pending : Finset Int
  sender : Int → Option Nat
  hand : Nat → Option PendingResult
  chan : Nat → OneShot PendingResult
  calls : Nat → Option Call

/-- The steps that a call makes itself. -/
inductive Turn where
  | stamp
  | register
  | accept
  | refuse (message : String)
  | rollback
  | resolve
  | drop
  | release

namespace Table

def new : Table where
  seq := 0
  pending := ∅
  sender := fun _ => none
  hand := fun _ => none
  chan := fun _ => .empty
  calls := fun _ => none

/-- `next_seq`: an atomic increment of an `i64`. -/
def nextSeq (s : Table) : Int × Table :=
  let seq := (s.seq + 1).bmod (2 ^ 64)
  (seq, { s with seq := seq })

/-- The channels once the sender under a key is dropped. -/
def dropSender (s : Table) (seq : Int) : Nat → OneShot PendingResult :=
  match s.sender seq with
  | some t => if seq ∈ s.pending then Function.update s.chan t .closed else s.chan
  | none => s.chan

/-- `register_pending`: the entry replaces one under the same key. -/
def registerPending (s : Table) (seq : Int) (t : Nat) : Table :=
  { s with
    pending := insert seq s.pending
    sender := Function.update s.sender seq (some t)
    chan := s.dropSender seq }

/-- `remove_pending`, whose result is dropped. -/
def removePending (s : Table) (seq : Int) : Table :=
  { s with pending := s.pending.erase seq, chan := s.dropSender seq }

/-- The part of `dispatch_response` under the lock. -/
def dispatchResponse (s : Table) (response : Response) : Table :=
  match s.sender response.requestSeq with
  | some t =>
    if response.requestSeq ∈ s.pending then
      { s with
        pending := s.pending.erase response.requestSeq
        hand := Function.update s.hand t (some (.ok (.response response))) }
    else s
  | none => s

/-- The part of `cancel_all_pending` under the lock. -/
def drainPending (s : Table) : Table :=
  { s with
    pending := ∅
    hand := fun t =>
      if ∃ q ∈ s.pending, s.sender q = some t then some (.error .closed) else s.hand t }

/-- A sender that was taken sends. -/
def deliver (s : Table) (t : Nat) : Option Table :=
  (s.hand t).map fun r =>
    { s with hand := Function.update s.hand t none, chan := Function.update s.chan t (.sent r) }

/-- A call goes on. -/
def go (s : Table) (t : Nat) (c : Call) (turn : Turn) : Option (Table × Stage) :=
  match turn, c.stage, c.kind with
  | .stamp, .created, _ => some (s.nextSeq.2, .stamped s.nextSeq.1)
  | .register, .stamped q, _ => some (s.registerPending q t, .writing q)
  | .accept, .writing q, .send => some (s, .awaiting q)
  | .accept, .writing q, .sendAsync => some (s, .left q)
  | .refuse message, .writing q, _ => some (s, .failed q message)
  | .rollback, .failed q message, _ =>
    some (s.removePending q, .returned q (.error (.send message)))
  | .resolve, .awaiting q, _ =>
    (s.chan t).poll.map fun r => (s, .returned q (r.getD (.error .closed)))
  | .drop, .created, _ => some (s, .dropped none)
  | .drop, .writing q, .send => some (s, .aborting q)
  | .drop, .writing q, .sendAsync => some (s, .left q)
  | .drop, .awaiting q, _ => some (s, .aborting q)
  | .release, .aborting q, _ => some (s.removePending q, .dropped (some q))
  | _, _, _ => none

def setCall (s : Table) (t : Nat) (c : Call) : Table :=
  { s with calls := Function.update s.calls t (some c) }

end Table

/-- A call begins or goes on, a response arrives, all pending requests are cancelled, a sender
that was taken sends, or a seq is drawn for nothing. -/
inductive Action where
  | call (t : Nat) (kind : Kind)
  | turn (t : Nat) (turn : Turn)
  | response (response : Response)
  | cancelAll
  | deliver (t : Nat)
  | nextSeq

namespace Table

def step (s : Table) : Action → Option Table
  | .call t kind =>
    match s.calls t with
    | none => some (s.setCall t ⟨kind, .created⟩)
    | some _ => none
  | .turn t turn =>
    (s.calls t).bind fun c =>
      (s.go t c turn).map fun (s', stage) => s'.setCall t ⟨c.kind, stage⟩
  | .response response => some (s.dispatchResponse response)
  | .cancelAll => some s.drainPending
  | .deliver t => s.deliver t
  | .nextSeq => some s.nextSeq.2

/-- The result that a call returns in a step. -/
def returns (s : Table) : Action → List (Nat × Int × PendingResult)
  | .turn t turn =>
    match (s.calls t).bind fun c => s.go t c turn with
    | some (_, .returned q r) => [(t, q, r)]
    | _ => []
  | _ => []

/-- What a step sends, and to which call. -/
def sends (s : Table) : Action → List (Nat × PendingResult)
  | .deliver t => ((s.hand t).map fun r => (t, r)).toList
  | _ => []

/-- The seq that a call has stamped. -/
def seqOf (s : Table) (t : Nat) : Option Int := (s.calls t).bind (·.stage.seq)

end Table

/-- The steps that draw a seq. -/
def draws : Action → Bool
  | .turn _ .stamp | .nextSeq => true
  | _ => false

variable {s s' : Table} {t : Nat} {c : Call} {q : Int} {r : PendingResult} {stage : Stage}
  {turn : Turn} {a : Action} {n : Nat}

/-- Every way a call can go on. -/
inductive Turns (s : Table) (t : Nat) (c : Call) : Turn → Table → Stage → Prop where
  | stamp (at_ : c.stage = .created) : Turns s t c .stamp s.nextSeq.2 (.stamped s.nextSeq.1)
  | register {q : Int} (at_ : c.stage = .stamped q) :
      Turns s t c .register (s.registerPending q t) (.writing q)
  | accept {q : Int} (at_ : c.stage = .writing q) (kind : c.kind = .send) :
      Turns s t c .accept s (.awaiting q)
  | acceptAsync {q : Int} (at_ : c.stage = .writing q) (kind : c.kind = .sendAsync) :
      Turns s t c .accept s (.left q)
  | refuse {q : Int} {message : String} (at_ : c.stage = .writing q) :
      Turns s t c (.refuse message) s (.failed q message)
  | rollback {q : Int} {message : String} (at_ : c.stage = .failed q message) :
      Turns s t c .rollback (s.removePending q) (.returned q (.error (.send message)))
  | resolve {q : Int} {r : Option PendingResult} (at_ : c.stage = .awaiting q)
      (poll : (s.chan t).poll = some r) :
      Turns s t c .resolve s (.returned q (r.getD (.error .closed)))
  | drop (at_ : c.stage = .created) : Turns s t c .drop s (.dropped none)
  | abort {q : Int} (at_ : c.stage = .writing q ∨ c.stage = .awaiting q) :
      Turns s t c .drop s (.aborting q)
  | abandon {q : Int} (at_ : c.stage = .writing q) (kind : c.kind = .sendAsync) :
      Turns s t c .drop s (.left q)
  | release {q : Int} (at_ : c.stage = .aborting q) :
      Turns s t c .release (s.removePending q) (.dropped (some q))

theorem turns_of_go (gone : s.go t c turn = some (s', stage)) : Turns s t c turn s' stage := by
  unfold Table.go at gone
  split at gone
  · cases gone
    exact .stamp ‹_›
  · cases gone
    exact .register ‹_›
  · cases gone
    exact .accept ‹_› ‹_›
  · cases gone
    exact .acceptAsync ‹_› ‹_›
  · cases gone
    exact .refuse ‹_›
  · cases gone
    exact .rollback ‹_›
  · obtain ⟨r, poll, eq⟩ := Option.map_eq_some_iff.mp gone
    cases eq
    exact .resolve ‹_› poll
  · cases gone
    exact .drop ‹_›
  · cases gone
    exact .abort (.inl ‹_›)
  · cases gone
    exact .abandon ‹_› ‹_›
  · cases gone
    exact .abort (.inr ‹_›)
  · cases gone
    exact .release ‹_›
  · cases gone

/-- Every way the whole can go. -/
inductive Steps (s : Table) : Action → Table → Prop where
  | call {t : Nat} {kind : Kind} (fresh : s.calls t = none) :
      Steps s (.call t kind) (s.setCall t ⟨kind, .created⟩)
  | turn {t : Nat} {c : Call} {turn : Turn} {s' : Table} {stage : Stage}
      (here : s.calls t = some c) (turns : Turns s t c turn s' stage) :
      Steps s (.turn t turn) (s'.setCall t ⟨c.kind, stage⟩)
  | response (response : Response) : Steps s (.response response) (s.dispatchResponse response)
  | cancelAll : Steps s .cancelAll s.drainPending
  | deliver {t : Nat} {r : PendingResult} (hand : s.hand t = some r) :
      Steps s (.deliver t) { s with
        hand := Function.update s.hand t none
        chan := Function.update s.chan t (.sent r) }
  | nextSeq : Steps s .nextSeq s.nextSeq.2

theorem steps_of_step (taken : s.step a = some s') : Steps s a s' := by
  cases a with
  | call t kind =>
    simp only [Table.step] at taken
    split at taken <;> cases taken
    exact .call ‹_›
  | turn t turn =>
    obtain ⟨c, here, rest⟩ := Option.bind_eq_some_iff.mp taken
    obtain ⟨⟨k, stage⟩, gone, rfl⟩ := Option.map_eq_some_iff.mp rest
    exact .turn here (turns_of_go gone)
  | response response =>
    cases taken
    exact .response response
  | cancelAll =>
    cases taken
    exact .cancelAll
  | deliver t =>
    obtain ⟨r, hand, rfl⟩ := Option.map_eq_some_iff.mp taken
    exact .deliver hand
  | nextSeq =>
    cases taken
    exact .nextSeq

/-- The reply that is meant for the request `q`: a response to it, or the closed error. -/
def Answers (q : Int) (r : PendingResult) : Prop :=
  (∃ response, r = .ok (.response response) ∧ response.requestSeq = q) ∨ r = .error .closed

/-- Where the sender of a registered call is: in the map, about to send, or used up. -/
inductive Held (s : Table) (t : Nat) (q : Int) : Prop where
  | stored (there : q ∈ s.pending) (sender : s.sender q = some t) (hand : s.hand t = none)
      (chan : s.chan t = .empty)
  | sending {r : PendingResult} (gone : q ∉ s.pending) (hand : s.hand t = some r)
      (answers : Answers q r) (chan : s.chan t = .empty)
  | spent (gone : q ∉ s.pending) (hand : s.hand t = none) (chan : s.chan t ≠ .empty)
      (answers : ∀ r, s.chan t = .sent r → Answers q r)

/-- What links seqs, entries and calls, when `n` seqs were drawn. -/
structure Inv (n : Nat) (s : Table) : Prop where
  seq : s.seq = n
  assigned : ∀ t q, s.seqOf t = some q → 1 ≤ q ∧ q ≤ n
  alone : ∀ t t' q, s.seqOf t = some q → s.seqOf t' = some q → t = t'
  held : ∀ t c q, s.calls t = some c → c.stage.registered = some q → Held s t q
  /-- A call that has not registered has no channel yet. -/
  blank : ∀ t, (∀ c, s.calls t = some c → c.stage.registered = none) →
    s.hand t = none ∧ s.chan t = .empty
  entry : ∀ q ∈ s.pending, ∃ t c, s.calls t = some c ∧ c.stage.waits = some q
  kind : ∀ t c q, s.calls t = some c → c.stage = .left q → c.kind = .sendAsync

private theorem inv_new : Inv 0 Table.new where
  seq := rfl
  assigned t q h := by cases h
  alone t t' q h := by cases h
  held t c q h := by cases h
  blank t _ := ⟨rfl, rfl⟩
  entry q h := by cases h
  kind t c q h := by cases h

theorem registered_of_waits (h : stage.waits = some q) : stage.registered = some q := by
  cases stage <;> first | exact h | cases h

theorem seq_of_registered (h : stage.registered = some q) : stage.seq = some q := by
  cases stage <;> first | exact h | cases h

theorem not_waits_of_finished (h : stage.finished = some q) (left : ∀ q, stage ≠ .left q) :
    stage.waits = none := by
  cases stage <;> first | rfl | exact absurd rfl (left _) | cases h

theorem seqOf_eq (here : s.calls t = some c) : s.seqOf t = c.stage.seq := by
  simp [Table.seqOf, here]

theorem seqOf_registered (here : s.calls t = some c)
    (registered : c.stage.registered = some q) : s.seqOf t = some q := by
  rw [seqOf_eq here]
  exact seq_of_registered registered

/-- Two calls do not share a key. -/
private theorem Inv.key_ne {u : Nat} {p : Int} (inv : Inv n s) (mine : s.seqOf t = some q)
    (yours : s.seqOf u = some p) (other : u ≠ t) : p ≠ q := by
  rintro rfl
  exact other (inv.alone u t p yours mine)

/-- A call that has not registered is not the one that has. -/
private theorem blank_ne {u : Nat} (here : s.calls t = some c)
    (registered : c.stage.registered = some q)
    (unregistered : ∀ c, s.calls u = some c → c.stage.registered = none) : u ≠ t := by
  rintro rfl
  cases registered.symm.trans (unregistered c here)

/-- An entry of the map belongs to the call that has stamped its key, and holds its sender. -/
theorem Inv.owner (inv : Inv n s) (there : q ∈ s.pending) : ∃ t c, s.calls t = some c ∧
    c.stage.waits = some q ∧ s.sender q = some t ∧ s.hand t = none ∧ s.chan t = .empty := by
  obtain ⟨t, c, here, waits⟩ := inv.entry q there
  refine ⟨t, c, here, waits, ?_⟩
  cases inv.held t c q here (registered_of_waits waits) with
  | stored _ sender hand chan => exact ⟨sender, hand, chan⟩
  | sending gone => exact absurd there gone
  | spent gone => exact absurd there gone

theorem Inv.owner_eq (inv : Inv n s) (there : q ∈ s.pending) (here : s.calls t = some c)
    (mine : c.stage.seq = some q) : c.stage.waits = some q ∧ s.sender q = some t := by
  obtain ⟨t', c', here', waits, sender, -⟩ := inv.owner there
  obtain rfl := inv.alone t t' q (by rw [seqOf_eq here, mine])
    (by rw [seqOf_eq here']; exact seq_of_registered (registered_of_waits waits))
  cases here.symm.trans here'
  exact ⟨waits, sender⟩

/-- A call that is over has left no entry, unless it is a `send_async`. -/
theorem Inv.gone (inv : Inv n s) (here : s.calls t = some c) (send : c.kind = .send)
    (finished : c.stage.finished = some q) : q ∉ s.pending := by
  intro there
  have mine : c.stage.seq = some q := by
    cases h : c.stage <;> rw [h] at finished <;> first | exact finished | cases finished
  have waits := (inv.owner_eq there here mine).1
  rw [not_waits_of_finished finished] at waits
  · cases waits
  · intro q' left
    cases send.symm.trans (inv.kind t c q' here left)

/-! What each part of a step preserves. -/

@[simp] theorem setCall_self (s : Table) (t : Nat) (c : Call) :
    (s.setCall t c).calls t = some c := Function.update_self ..

theorem setCall_other {s : Table} {t u : Nat} (c : Call) (other : u ≠ t) :
    (s.setCall t c).calls u = s.calls u := Function.update_of_ne other ..

/-- Where a sender is depends on its own key and call only. -/
private theorem held_frame {s s' : Table} (held : Held s t q)
    (pending : q ∈ s'.pending ↔ q ∈ s.pending) (sender : s'.sender q = s.sender q)
    (hand : s'.hand t = s.hand t) (chan : s'.chan t = s.chan t) : Held s' t q := by
  cases held with
  | stored there sender' hand' chan' =>
    exact .stored (pending.mpr there) (sender.trans sender') (hand.trans hand') (chan.trans chan')
  | sending gone hand' answers chan' =>
    exact .sending (mt pending.mp gone) (hand.trans hand') answers (chan.trans chan')
  | spent gone hand' full answers =>
    exact .spent (mt pending.mp gone) (hand.trans hand') (chan ▸ full) (chan ▸ answers)

private theorem held_same {s s' : Table} (held : Held s t q) (pending : s'.pending = s.pending)
    (sender : s'.sender = s.sender) (hand : s'.hand = s.hand) (chan : s'.chan = s.chan) :
    Held s' t q :=
  held_frame held (by rw [pending]) (congrFun sender q) (congrFun hand t) (congrFun chan t)

private theorem mem_erase_other {p : Int} (other : p ≠ q) :
    p ∈ s.pending.erase q ↔ p ∈ s.pending :=
  ⟨Finset.mem_of_mem_erase, fun h => Finset.mem_erase.mpr ⟨other, h⟩⟩

/-- A call changes its stage and nothing else. -/
private theorem inv_stage (inv : Inv n s) (here : s.calls t = some c)
    (seq : stage.seq = c.stage.seq) (registered : stage.registered = c.stage.registered)
    (waits : ∀ q, c.stage.waits = some q → stage.waits = some q ∨ q ∉ s.pending)
    (kind : ∀ q, stage = .left q → c.kind = .sendAsync) :
    Inv n (s.setCall t ⟨c.kind, stage⟩) := by
  have seqOf : ∀ u, (s.setCall t ⟨c.kind, stage⟩).seqOf u = s.seqOf u := by
    intro u
    by_cases same : u = t
    · subst same
      rw [seqOf_eq (c := ⟨c.kind, stage⟩) (setCall_self ..),
        seqOf_eq here, seq]
    · rw [Table.seqOf, setCall_other _ same]
      rfl
  have old : ∀ u d, (s.setCall t ⟨c.kind, stage⟩).calls u = some d →
      ∃ d', s.calls u = some d' ∧ d.stage.registered = d'.stage.registered := by
    intro u d there
    by_cases same : u = t
    · subst same
      rw [setCall_self] at there
      cases there
      exact ⟨c, here, registered⟩
    · rw [setCall_other _ same] at there
      exact ⟨d, there, rfl⟩
  refine ⟨inv.seq, ?_, ?_, ?_, ?_, ?_, ?_⟩
  · intro u q h
    exact inv.assigned u q (seqOf u ▸ h)
  · intro u u' q h h'
    exact inv.alone u u' q (seqOf u ▸ h) (seqOf u' ▸ h')
  · intro u d q there registered
    obtain ⟨d', there', same⟩ := old u d there
    exact held_same (inv.held u d' q there' (same ▸ registered)) rfl rfl rfl rfl
  · intro u none
    refine inv.blank u fun d there => ?_
    by_cases same : u = t
    · subst same
      cases here.symm.trans there
      rw [← registered]
      exact none ⟨c.kind, stage⟩ (setCall_self ..)
    · exact none d ((setCall_other _ same).trans there)
  · intro q there
    obtain ⟨u, d, there', waits'⟩ := inv.entry q there
    by_cases same : u = t
    · subst same
      cases here.symm.trans there'
      rcases waits q waits' with still | gone
      · exact ⟨u, ⟨c.kind, stage⟩, setCall_self .., still⟩
      · exact absurd there gone
    · exact ⟨u, d, (setCall_other _ same).trans there', waits'⟩
  · intro u d q there left
    by_cases same : u = t
    · subst same
      rw [setCall_self] at there
      cases there
      exact kind q left
    · rw [setCall_other _ same] at there
      exact inv.kind u d q there left

/-- As long as fewer than `2 ^ 63` seqs are drawn, the counter does not wrap. -/
private theorem nextSeq_eq (seq : s.seq = n) (few : n + 1 < 2 ^ 63) :
    s.nextSeq = ((n : Int) + 1, { s with seq := (n : Int) + 1 }) := by
  have small : ((n : Int) + 1).bmod (2 ^ 64) = (n : Int) + 1 := by
    apply Int.bmod_eq_of_le <;> omega
  simp only [Table.nextSeq, seq, small]

private theorem inv_draw (inv : Inv n s) (few : n + 1 < 2 ^ 63) :
    Inv (n + 1) s.nextSeq.2 := by
  rw [nextSeq_eq inv.seq few]
  refine ⟨by simp, fun t q h => ?_, inv.alone, fun t c q here registered => ?_, inv.blank,
    inv.entry,
    inv.kind⟩
  · have := inv.assigned t q h
    omega
  · exact held_same (inv.held t c q here registered) rfl rfl rfl rfl

private theorem inv_stamp (inv : Inv n s) (few : n + 1 < 2 ^ 63) (here : s.calls t = some c)
    (created : c.stage = .created) :
    Inv (n + 1) (s.nextSeq.2.setCall t ⟨c.kind, .stamped s.nextSeq.1⟩) := by
  rw [nextSeq_eq inv.seq few]
  have seqOf : ∀ u (q : Int), ({ s with seq := (n : Int) + 1 }.setCall t
      ⟨c.kind, .stamped ((n : Int) + 1)⟩).seqOf u = some q →
      (u = t ∧ q = n + 1) ∨ (u ≠ t ∧ s.seqOf u = some q) := by
    intro u q h
    by_cases same : u = t
    · subst same
      rw [seqOf_eq (c := ⟨c.kind, .stamped ((n : Int) + 1)⟩)
        (setCall_self ..)] at h
      exact .inl ⟨rfl, (Option.some.inj h).symm⟩
    · rw [Table.seqOf, setCall_other _ same] at h
      exact .inr ⟨same, h⟩
  have old : ∀ u d (q : Int), ({ s with seq := (n : Int) + 1 }.setCall t
      ⟨c.kind, .stamped ((n : Int) + 1)⟩).calls u = some d → d.stage.registered = some q →
      s.calls u = some d := by
    intro u d q there registered
    by_cases same : u = t
    · subst same
      rw [setCall_self] at there
      cases there
      cases registered
    · rwa [setCall_other _ same] at there
  refine ⟨by simp [Table.setCall], ?_, ?_, ?_, ?_, ?_, ?_⟩
  · intro u q h
    rcases seqOf u q h with ⟨rfl, rfl⟩ | ⟨-, h⟩
    · omega
    · have := inv.assigned u q h
      omega
  · intro u u' q h h'
    rcases seqOf u q h with ⟨rfl, rfl⟩ | ⟨-, mine⟩ <;>
      rcases seqOf u' _ h' with ⟨rfl, eq⟩ | ⟨-, its⟩
    · rfl
    · have := inv.assigned u' _ its
      omega
    · have := inv.assigned u q mine
      omega
    · exact inv.alone u u' q mine its
  · intro u d q there registered
    exact held_same (inv.held u d q (old u d q there registered) registered) rfl rfl rfl rfl
  · intro u none
    refine inv.blank u fun d there => ?_
    by_cases same : u = t
    · subst same
      cases here.symm.trans there
      rw [created]
      rfl
    · exact none d ((setCall_other _ same).trans there)
  · intro q there
    obtain ⟨u, d, there', waits⟩ := inv.entry q there
    have other : u ≠ t := by
      rintro rfl
      cases here.symm.trans there'
      rw [created] at waits
      cases waits
    exact ⟨u, d, (setCall_other _ other).trans there', waits⟩
  · intro u d q there left
    have there' := old u d q there (by rw [left]; rfl)
    exact inv.kind u d q there' left

private theorem inv_call {kind : Kind} (inv : Inv n s) (fresh : s.calls t = none) :
    Inv n (s.setCall t ⟨kind, .created⟩) := by
  have old : ∀ u d q, (s.setCall t ⟨kind, .created⟩).calls u = some d → d.stage.seq = some q →
      s.calls u = some d := by
    intro u d q there seq
    by_cases same : u = t
    · subst same
      rw [setCall_self] at there
      cases there
      cases seq
    · rwa [setCall_other _ same] at there
  have seqOf : ∀ u q, (s.setCall t ⟨kind, .created⟩).seqOf u = some q → s.seqOf u = some q := by
    intro u q h
    obtain ⟨d, there, seq⟩ := Option.bind_eq_some_iff.mp h
    rw [seqOf_eq (old u d q there seq), seq]
  refine ⟨inv.seq, fun u q h => inv.assigned u q (seqOf u q h),
    fun u u' q h h' => inv.alone u u' q (seqOf u q h) (seqOf u' q h'), ?_, ?_, ?_, ?_⟩
  · intro u d q there registered
    have there' := old u d q there (seq_of_registered registered)
    exact held_same (inv.held u d q there' registered) rfl rfl rfl rfl
  · intro u none
    refine inv.blank u fun d there => ?_
    have other : u ≠ t := by
      rintro rfl
      cases fresh.symm.trans there
    exact none d ((setCall_other _ other).trans there)
  · intro q there
    obtain ⟨u, d, there', waits⟩ := inv.entry q there
    have other : u ≠ t := by
      rintro rfl
      cases fresh.symm.trans there'
    exact ⟨u, d, (setCall_other _ other).trans there', waits⟩
  · intro u d q there left
    exact inv.kind u d q (old u d q there (by rw [left]; rfl)) left

/-- The key is fresh: no other call has stamped it. -/
private theorem Inv.stamped_fresh (inv : Inv n s) (here : s.calls t = some c)
    (stamped : c.stage = .stamped q) : q ∉ s.pending := by
  intro there
  have waits := (inv.owner_eq there here (by rw [stamped]; rfl)).1
  rw [stamped] at waits
  cases waits

private theorem inv_register (inv : Inv n s) (here : s.calls t = some c)
    (stamped : c.stage = .stamped q) :
    Inv n ((s.registerPending q t).setCall t ⟨c.kind, .writing q⟩) := by
  have fresh := inv.stamped_fresh here stamped
  have mine : s.seqOf t = some q := by
    rw [seqOf_eq here, stamped]
    rfl
  have chan : (s.registerPending q t).chan = s.chan := by
    simp only [Table.registerPending, Table.dropSender, fresh, if_false]
    split <;> rfl
  have seqOf : ∀ u, ((s.registerPending q t).setCall t ⟨c.kind, .writing q⟩).seqOf u =
      s.seqOf u := by
    intro u
    by_cases same : u = t
    · subst same
      rw [mine, seqOf_eq (c := ⟨c.kind, .writing q⟩) (setCall_self ..)]
      rfl
    · rw [Table.seqOf, setCall_other _ same]
      rfl
  obtain ⟨hand, empty⟩ := inv.blank t fun d there => by
    cases here.symm.trans there
    rw [stamped]
    rfl
  refine ⟨inv.seq, fun u q h => inv.assigned u q (seqOf u ▸ h),
    fun u u' q h h' => inv.alone u u' q (seqOf u ▸ h) (seqOf u' ▸ h'), ?_, ?_, ?_, ?_⟩
  · intro u d p there registered
    by_cases same : u = t
    · subst same
      rw [setCall_self] at there
      cases there
      cases registered
      refine .stored (Finset.mem_insert_self ..) (Function.update_self ..) hand ?_
      exact (congrFun chan u).trans empty
    · rw [setCall_other _ same] at there
      have other := inv.key_ne mine (seqOf_registered there registered) same
      refine held_frame (inv.held u d p there registered) ?_ ?_ rfl (congrFun chan u)
      · exact ⟨fun h => (Finset.mem_insert.mp h).resolve_left other, Finset.mem_insert_of_mem⟩
      · exact Function.update_of_ne other ..
  · intro u none
    have other : u ≠ t := by
      rintro rfl
      have := none ⟨c.kind, .writing q⟩ (setCall_self ..)
      cases this
    have blank := inv.blank u fun d there =>
      none d ((setCall_other _ other).trans there)
    exact ⟨blank.1, (congrFun chan u).trans blank.2⟩
  · intro p there
    rcases Finset.mem_insert.mp there with rfl | old
    · exact ⟨t, ⟨c.kind, .writing p⟩, setCall_self .., rfl⟩
    · obtain ⟨u, d, there', waits⟩ := inv.entry p old
      have other : u ≠ t := by
        rintro rfl
        cases here.symm.trans there'
        rw [stamped] at waits
        cases waits
      exact ⟨u, d, (setCall_other _ other).trans there', waits⟩
  · intro u d p there left
    by_cases same : u = t
    · subst same
      rw [setCall_self] at there
      cases there
      cases left
    · rw [setCall_other _ same] at there
      exact inv.kind u d p there left

/-- The sender of a registered call moves on, and all others stay where they are. -/
private theorem Inv.moved {pending : Finset Int} {hand : Nat → Option PendingResult}
    {chan : Nat → OneShot PendingResult} (inv : Inv n s) (here : s.calls t = some c)
    (registered : c.stage.registered = some q) (fewer : ∀ p ∈ pending, p ∈ s.pending)
    (others : ∀ p, p ≠ q → (p ∈ pending ↔ p ∈ s.pending))
    (hands : ∀ u, u ≠ t → hand u = s.hand u) (chans : ∀ u, u ≠ t → chan u = s.chan u)
    (mine : Held { s with pending := pending, hand := hand, chan := chan } t q) :
    Inv n { s with pending := pending, hand := hand, chan := chan } := by
  refine ⟨inv.seq, inv.assigned, inv.alone, ?_, ?_, fun p there => inv.entry p (fewer p there),
    inv.kind⟩
  · intro u d p there registered'
    by_cases same : u = t
    · subst same
      cases here.symm.trans there
      cases registered.symm.trans registered'
      exact mine
    · have other := inv.key_ne (seqOf_registered here registered)
        (seqOf_registered there registered') same
      exact held_frame (inv.held u d p there registered') (others p other) rfl (hands u same)
        (chans u same)
  · intro u none
    have other := blank_ne here registered none
    have blank := inv.blank u none
    exact ⟨(hands u other).trans blank.1, (chans u other).trans blank.2⟩

/-- The sender of the entry under `q` is dropped, if the entry is there. -/
private theorem inv_remove (inv : Inv n s) (here : s.calls t = some c)
    (registered : c.stage.registered = some q) :
    Inv n (s.removePending q) ∧ q ∉ (s.removePending q).pending := by
  refine ⟨?_, Finset.notMem_erase q s.pending⟩
  by_cases there : q ∈ s.pending
  · have sender := (inv.owner_eq there here (seq_of_registered registered)).2
    have removed : s.removePending q = { s with
        pending := s.pending.erase q
        chan := Function.update s.chan t .closed } := by
      simp only [Table.removePending, Table.dropSender, sender, there, if_true]
    rw [removed]
    refine inv.moved here registered (fun p => Finset.mem_of_mem_erase)
      (fun p other => mem_erase_other other) (fun u _ => rfl)
      (fun u other => Function.update_of_ne other ..) ?_
    have closed : Function.update s.chan t .closed t = .closed := Function.update_self ..
    cases inv.held t c q here registered with
    | stored _ _ hand =>
      refine .spent (Finset.notMem_erase q s.pending) hand ?_ fun r h => ?_
      · exact fun h => by cases closed.symm.trans h
      · cases closed.symm.trans h
    | sending gone => exact absurd there gone
    | spent gone => exact absurd there gone
  · have chan : (s.removePending q).chan = s.chan := by
      simp only [Table.removePending, Table.dropSender, there, if_false]
      split <;> rfl
    have pending : (s.removePending q).pending = s.pending := Finset.erase_eq_of_notMem there
    refine ⟨inv.seq, inv.assigned, inv.alone, fun u d p there' registered' => ?_, fun u none => ?_,
      fun p h => inv.entry p (pending ▸ h), inv.kind⟩
    · exact held_same (inv.held u d p there' registered') pending rfl rfl chan
    · have blank := inv.blank u none
      exact ⟨blank.1, (congrFun chan u).trans blank.2⟩

private theorem inv_dispatch (inv : Inv n s) (response : Response) :
    Inv n (s.dispatchResponse response) := by
  by_cases there : response.requestSeq ∈ s.pending
  · obtain ⟨t, c, here, waits, sender, hand, empty⟩ := inv.owner there
    have registered := registered_of_waits waits
    have taken : s.dispatchResponse response = { s with
        pending := s.pending.erase response.requestSeq
        hand := Function.update s.hand t (some (.ok (.response response))) } := by
      simp only [Table.dispatchResponse, sender, there, if_true]
    rw [taken]
    refine inv.moved here registered (fun p => Finset.mem_of_mem_erase)
      (fun p other => mem_erase_other other) (fun u other => Function.update_of_ne other ..)
      (fun u _ => rfl) ?_
    exact .sending (Finset.notMem_erase _ s.pending) (Function.update_self ..)
      (.inl ⟨response, rfl, rfl⟩) empty
  · have ignored : s.dispatchResponse response = s := by
      simp only [Table.dispatchResponse, there, if_false]
      split <;> rfl
    rwa [ignored]

private theorem inv_drain (inv : Inv n s) : Inv n s.drainPending := by
  -- Only the senders in the map are taken.
  have mine : ∀ u, (∃ q ∈ s.pending, s.sender q = some u) →
      ∃ c q, s.calls u = some c ∧ c.stage.registered = some q ∧ q ∈ s.pending := by
    rintro u ⟨q, there, sender⟩
    obtain ⟨t, c, here, waits, sender', -⟩ := inv.owner there
    cases sender.symm.trans sender'
    exact ⟨c, q, here, registered_of_waits waits, there⟩
  have still : ∀ u d p, s.calls u = some d → d.stage.registered = some p → p ∉ s.pending →
      s.drainPending.hand u = s.hand u := by
    intro u d p there registered gone
    refine if_neg fun h => ?_
    obtain ⟨c, q, here, registered', there'⟩ := mine u h
    cases there.symm.trans here
    cases registered.symm.trans registered'
    exact gone there'
  refine ⟨inv.seq, inv.assigned, inv.alone, ?_, ?_, fun q h => (by cases h), inv.kind⟩
  · intro u d p there registered
    cases inv.held u d p there registered with
    | stored there' sender _ empty =>
      exact .sending (Finset.notMem_empty p) (if_pos ⟨p, there', sender⟩) (.inr rfl) empty
    | sending gone hand answers empty =>
      exact .sending (Finset.notMem_empty p)
        ((still u d p there registered gone).trans hand) answers empty
    | spent gone hand full answers =>
      exact .spent (Finset.notMem_empty p)
        ((still u d p there registered gone).trans hand) full answers
  · intro u none
    have blank := inv.blank u none
    refine ⟨(if_neg fun h => ?_).trans blank.1, blank.2⟩
    obtain ⟨c, q, here, registered, -⟩ := mine u h
    cases (none c here).symm.trans registered

/-- A sender that is about to send belongs to a registered call, and answers it. -/
private theorem Inv.hand_call (inv : Inv n s) (hand : s.hand t = some r) :
    ∃ c q, s.calls t = some c ∧ c.stage.registered = some q ∧ q ∉ s.pending ∧ Answers q r ∧
      s.chan t = .empty := by
  by_contra none
  have registered : ∃ c q, s.calls t = some c ∧ c.stage.registered = some q := by
    by_contra unregistered
    have blank := inv.blank t fun c here => by
      by_contra some_
      obtain ⟨q, eq⟩ := Option.ne_none_iff_exists'.mp some_
      exact unregistered ⟨c, q, here, eq⟩
    cases hand.symm.trans blank.1
  obtain ⟨c, q, here, registered⟩ := registered
  cases inv.held t c q here registered with
  | stored _ _ idle => cases hand.symm.trans idle
  | @sending r' gone hand' answers empty =>
    cases hand.symm.trans hand'
    exact none ⟨c, q, here, registered, gone, answers, empty⟩
  | spent _ idle => cases hand.symm.trans idle

private theorem inv_deliver (inv : Inv n s) (hand : s.hand t = some r) :
    Inv n { s with
      hand := Function.update s.hand t none
      chan := Function.update s.chan t (.sent r) } := by
  obtain ⟨c, q, here, registered, gone, answers, empty⟩ := inv.hand_call hand
  refine inv.moved here registered (fun _ there => there) (fun _ _ => Iff.rfl)
    (fun u other => Function.update_of_ne other ..)
    (fun u other => Function.update_of_ne other ..) ?_
  have full : Function.update s.chan t (.sent r) t = .sent r := Function.update_self ..
  refine .spent gone (Function.update_self ..) ?_ fun r' h => ?_
  · exact fun h => by cases full.symm.trans h
  · cases full.symm.trans h
    exact answers

private theorem inv_turn (inv : Inv n s)
    (few : (n + if draws (.turn t turn) then 1 else 0) < 2 ^ 63) (here : s.calls t = some c)
    (turns : Turns s t c turn s' stage) :
    Inv (n + if draws (.turn t turn) then 1 else 0) (s'.setCall t ⟨c.kind, stage⟩) := by
  -- The entry is gone before the stage says so.
  have removed : ∀ {q stage}, c.stage.registered = some q → stage.seq = some q →
      stage.registered = some q → (∀ q, stage ≠ .left q) →
      Inv n ((s.removePending q).setCall t ⟨c.kind, stage⟩) := by
    intro q stage registered seq registered' left
    obtain ⟨inv', gone⟩ := inv_remove inv here registered
    refine inv_stage inv' here (seq.trans (seq_of_registered registered).symm)
      (registered'.trans registered.symm) (fun p waits => .inr ?_) fun p eq => absurd eq (left p)
    cases registered.symm.trans (registered_of_waits waits)
    exact gone
  cases turns with
  | stamp at_ => exact inv_stamp inv (by simpa [draws] using few) here at_
  | register at_ => exact inv_register inv here at_
  | accept at_ | refuse at_ =>
    refine inv_stage inv here ?_ ?_ (fun q waits => .inl ?_) fun q h => by cases h
    · rw [at_]; rfl
    · rw [at_]; rfl
    · rw [at_] at waits
      exact waits
  | acceptAsync at_ kind | abandon at_ kind =>
    refine inv_stage inv here ?_ ?_ (fun q waits => .inl ?_) fun _ _ => kind
    · rw [at_]; rfl
    · rw [at_]; rfl
    · rw [at_] at waits
      exact waits
  | rollback at_ =>
    exact removed (by rw [at_]; rfl) rfl rfl fun _ h => by cases h
  | release at_ =>
    exact removed (by rw [at_]; rfl) rfl rfl fun _ h => by cases h
  | @resolve q r at_ poll =>
    refine inv_stage inv here ?_ ?_ (fun p waits => .inr ?_) fun q h => by cases h
    · rw [at_]; rfl
    · rw [at_]; rfl
    · rw [at_] at waits
      cases waits
      have full : s.chan t ≠ .empty := by
        intro empty
        rw [empty] at poll
        cases poll
      cases inv.held t c q here (by rw [at_]; rfl) with
      | stored _ _ _ empty => exact absurd empty full
      | sending gone => exact gone
      | spent gone => exact gone
  | drop at_ =>
    refine inv_stage inv here ?_ ?_ (fun p waits => ?_) fun q h => by cases h
    · rw [at_]; rfl
    · rw [at_]; rfl
    · rw [at_] at waits
      cases waits
  | abort at_ =>
    refine inv_stage inv here ?_ ?_ (fun q waits => .inl ?_) fun q h => by cases h
    · rcases at_ with at_ | at_ <;> rw [at_] <;> rfl
    · rcases at_ with at_ | at_ <;> rw [at_] <;> rfl
    · rcases at_ with at_ | at_ <;>
        · rw [at_] at waits
          exact waits

/-- What links seqs, entries and calls is kept by every step. -/
theorem Inv.step (inv : Inv n s) (few : (n + if draws a then 1 else 0) < 2 ^ 63)
    (steps : Steps s a s') :
    Inv (n + if draws a then 1 else 0) s' := by
  cases steps with
  | call fresh => exact inv_call inv fresh
  | turn here turns => exact inv_turn inv few here turns
  | response response => exact inv_dispatch inv response
  | cancelAll => exact inv_drain inv
  | deliver hand => exact inv_deliver inv hand
  | nextSeq => exact inv_draw inv (by simpa [draws] using few)

/-! What one step leaves as it is. -/

private theorem Turns.calls_eq (turns : Turns s t c turn s' stage) : s'.calls = s.calls := by
  cases turns <;> rfl

private theorem dispatchResponse_frame (s : Table) (response : Response) :
    (s.dispatchResponse response).calls = s.calls ∧
      (s.dispatchResponse response).chan = s.chan := by
  unfold Table.dispatchResponse
  split
  · split <;> exact ⟨rfl, rfl⟩
  · exact ⟨rfl, rfl⟩

/-- A call changes by its beginning and by its own turns only. -/
theorem Steps.calls_cases (steps : Steps s a s') (t : Nat) :
    s'.calls t = s.calls t ∨
    (s.calls t = none ∧ ∃ kind, s'.calls t = some ⟨kind, .created⟩) ∨
    ∃ c turn k stage, a = .turn t turn ∧ s.calls t = some c ∧ Turns s t c turn k stage ∧
      s'.calls t = some ⟨c.kind, stage⟩ := by
  cases steps with
  | @call u kind fresh =>
    by_cases same : t = u
    · subst same
      exact .inr (.inl ⟨fresh, kind, setCall_self ..⟩)
    · exact .inl (setCall_other _ same)
  | @turn u c turn k stage here turns =>
    by_cases same : t = u
    · subst same
      exact .inr (.inr ⟨c, turn, k, stage, rfl, here, turns, setCall_self ..⟩)
    · exact .inl ((setCall_other _ same).trans (congrFun turns.calls_eq t))
  | response response => exact .inl (congrFun (dispatchResponse_frame s response).1 t)
  | cancelAll | deliver | nextSeq => exact .inl rfl

private theorem Turns.seq_stays (turns : Turns s t c turn s' stage) (seq : c.stage.seq = some q) :
    stage.seq = some q := by
  cases turns with
  | stamp at_ | drop at_ =>
    rw [at_] at seq
    cases seq
  | abort at_ =>
    rcases at_ with at_ | at_ <;>
      · rw [at_] at seq
        exact seq
  | register at_ | accept at_ | acceptAsync at_ | refuse at_ | rollback at_ | resolve at_
  | abandon at_ | release at_ =>
    rw [at_] at seq
    exact seq

theorem Steps.seqOf_stays (steps : Steps s a s') (seq : s.seqOf t = some q) :
    s'.seqOf t = some q := by
  obtain ⟨c, here, mine⟩ := Option.bind_eq_some_iff.mp seq
  rcases steps.calls_cases t with same | ⟨none, -⟩ | ⟨d, turn, k, stage, -, here', turns, now⟩
  · rw [seqOf_eq (same.trans here), mine]
  · cases here.symm.trans none
  · cases here.symm.trans here'
    rw [seqOf_eq now]
    exact turns.seq_stays mine

theorem Steps.returned_stays (steps : Steps s a s') (here : s.calls t = some c)
    (returned : c.stage = .returned q r) : s'.calls t = some c := by
  rcases steps.calls_cases t with same | ⟨none, -⟩ | ⟨d, turn, k, stage, -, here', turns, -⟩
  · exact same.trans here
  · cases here.symm.trans none
  · cases here.symm.trans here'
    cases turns with
    | abort at_ => rcases at_ with at_ | at_ <;> cases returned.symm.trans at_
    | stamp at_ | register at_ | accept at_ | acceptAsync at_ | refuse at_ | rollback at_
    | resolve at_ | drop at_ | abandon at_ | release at_ => cases returned.symm.trans at_

private theorem dropSender_full (full : s.chan t ≠ .empty) : s.dropSender q t ≠ .empty := by
  unfold Table.dropSender
  cases s.sender q with
  | none => exact full
  | some u =>
    by_cases there : q ∈ s.pending
    · simp only [there, if_true]
      by_cases same : t = u
      · subst same
        rw [Function.update_self]
        exact fun h => by cases h
      · rwa [Function.update_of_ne same]
    · simpa only [there, if_false] using full

theorem Steps.full_stays (steps : Steps s a s') (full : s.chan t ≠ .empty) :
    s'.chan t ≠ .empty := by
  cases steps with
  | turn here turns =>
    cases turns with
    | register | rollback | release => exact dropSender_full full
    | stamp | accept | acceptAsync | refuse | resolve | drop | abort | abandon => exact full
  | response response =>
    rw [(dispatchResponse_frame s response).2]
    exact full
  | @deliver u r hand =>
    change Function.update s.chan u (.sent r) t ≠ .empty
    by_cases same : t = u
    · subst same
      rw [Function.update_self]
      exact fun h => by cases h
    · rwa [Function.update_of_ne same]
  | call | cancelAll | nextSeq => exact full

/-- What a run has returned and sent so far. -/
private structure History (as : List Action) (got : List (Nat × Int × PendingResult))
    (sent : List (Nat × PendingResult)) (s : Table) : Prop where
  returned : ∀ t q r, (t, q, r) ∈ got → ∃ c, s.calls t = some c ∧ c.stage = .returned q r
  once : (got.map (·.1)).Nodup
  own : ∀ t q r, (t, q, r) ∈ got →
    Answers q r ∨ ∃ message, r = .error (.send message) ∧ .turn t (.refuse message) ∈ as
  refused : ∀ t c q message, s.calls t = some c → c.stage = .failed q message →
    .turn t (.refuse message) ∈ as
  delivered : ∀ t r, (t, r) ∈ sent → s.chan t ≠ .empty ∧ ∃ q, s.seqOf t = some q ∧ Answers q r
  deliveredOnce : (sent.map (·.1)).Nodup

variable {as : List Action} {got : List (Nat × Int × PendingResult)}
  {sent : List (Nat × PendingResult)}

private theorem history_new : History [] [] [] Table.new where
  returned t q r h := by cases h
  once := List.nodup_nil
  own t q r h := by cases h
  refused t c q message h := by cases h
  delivered t r h := by cases h
  deliveredOnce := List.nodup_nil

/-- A step that returns a result is the last turn of its call. -/
private theorem mem_returns (taken : s.step a = some s') (h : (t, q, r) ∈ s.returns a) :
    ∃ c turn k, a = .turn t turn ∧ s.returns a = [(t, q, r)] ∧ s.calls t = some c ∧
      Turns s t c turn k (.returned q r) ∧ s'.calls t = some ⟨c.kind, .returned q r⟩ := by
  cases a with
  | turn u turn =>
    simp only [Table.returns] at h ⊢
    split at h
    · rename_i k p r' gone
      cases List.mem_singleton.mp h
      obtain ⟨c, here, gone'⟩ := Option.bind_eq_some_iff.mp gone
      have after : s.step (.turn t turn) = some (k.setCall t ⟨c.kind, .returned q r⟩) := by
        simp only [Table.step, here, Option.bind_some, gone', Option.map_some]
      cases taken.symm.trans after
      exact ⟨c, turn, k, rfl, rfl, here, turns_of_go gone', setCall_self ..⟩
    · cases h
  | _ => cases h

/-- What a call returns is its reply, the closed error, or its own write error. -/
private theorem turns_own (inv : Inv n s) (history : History as got sent s)
    (here : s.calls t = some c) (turns : Turns s t c turn s' (.returned q r)) :
    Answers q r ∨ ∃ message, r = .error (.send message) ∧ .turn t (.refuse message) ∈ as := by
  cases turns with
  | rollback at_ => exact .inr ⟨_, rfl, history.refused t c _ _ here at_⟩
  | @resolve _ o at_ poll =>
    left
    cases o with
    | none => exact .inr rfl
    | some r =>
      have sent : s.chan t = .sent r := by
        cases h : s.chan t with
        | empty =>
          rw [h] at poll
          cases poll
        | sent v =>
          rw [h] at poll
          cases poll
          rfl
        | closed =>
          rw [h] at poll
          cases poll
      cases inv.held t c q here (by rw [at_]; rfl) with
      | stored _ _ _ empty | sending _ _ _ empty => cases sent.symm.trans empty
      | spent _ _ _ answers => exact answers r sent

private theorem history_step (inv : Inv n s) (history : History as got sent s)
    (taken : s.step a = some s') :
    History (as ++ [a]) (got ++ s.returns a) (sent ++ s.sends a) s' := by
  have steps := steps_of_step taken
  refine ⟨?_, ?_, ?_, ?_, ?_, ?_⟩
  · intro t q r h
    rcases List.mem_append.mp h with old | new
    · obtain ⟨c, here, returned⟩ := history.returned t q r old
      exact ⟨c, steps.returned_stays here returned, returned⟩
    · obtain ⟨c, turn, k, -, -, -, -, now⟩ := mem_returns taken new
      exact ⟨_, now, rfl⟩
  · rw [List.map_append, List.nodup_append]
    refine ⟨history.once, ?_, ?_⟩
    · cases h : s.returns a with
      | nil => exact List.nodup_nil
      | cons x xs =>
        obtain ⟨c, turn, k, -, eq, -⟩ := mem_returns (t := x.1) (q := x.2.1) (r := x.2.2) taken
          (by rw [h]; exact List.mem_cons_self)
        rw [h] at eq
        rw [eq]
        exact List.nodup_singleton _
    · intro t old u new same
      subst same
      obtain ⟨⟨t, q, r⟩, mem, rfl⟩ := List.mem_map.mp old
      obtain ⟨⟨u, q', r'⟩, mem', eq⟩ := List.mem_map.mp new
      cases eq
      obtain ⟨c, here, returned⟩ := history.returned _ q r mem
      obtain ⟨d, turn, k, -, -, here', turns, now⟩ := mem_returns taken mem'
      cases here.symm.trans here'
      cases turns with
      | rollback at_ | resolve at_ => cases returned.symm.trans at_
  · intro t q r h
    rcases List.mem_append.mp h with old | new
    · rcases history.own t q r old with answers | ⟨message, eq, mem⟩
      · exact .inl answers
      · exact .inr ⟨message, eq, List.mem_append_left _ mem⟩
    · obtain ⟨c, turn, k, -, -, here, turns, -⟩ := mem_returns taken new
      rcases turns_own inv history here turns with answers | ⟨message, eq, mem⟩
      · exact .inl answers
      · exact .inr ⟨message, eq, List.mem_append_left _ mem⟩
  · intro t c q message here failed
    rcases steps.calls_cases t with same | ⟨none, kind, now⟩ |
      ⟨d, turn, k, stage, rfl, here', turns, now⟩
    · exact List.mem_append_left _ (history.refused t c q message (same.symm.trans here) failed)
    · cases here.symm.trans now
      cases failed
    · cases here.symm.trans now
      cases failed
      cases turns with
      | refuse => exact List.mem_append_right _ List.mem_cons_self
  · intro t r h
    rcases List.mem_append.mp h with old | new
    · obtain ⟨full, q, seq, answers⟩ := history.delivered t r old
      exact ⟨steps.full_stays full, q, steps.seqOf_stays seq, answers⟩
    · cases a with
      | deliver u =>
        cases steps with
        | @deliver _ r' hand =>
          simp only [Table.sends, hand, Option.map_some, Option.toList_some,
            List.mem_singleton] at new
          cases new
          obtain ⟨c, q, here, registered, -, answers, -⟩ := inv.hand_call hand
          refine ⟨?_, q, seqOf_registered here registered, answers⟩
          change Function.update s.chan t (.sent r) t ≠ .empty
          rw [Function.update_self]
          exact fun h => by cases h
      | _ => cases new
  · rw [List.map_append, List.nodup_append]
    refine ⟨history.deliveredOnce, ?_, ?_⟩
    · cases a with
      | deliver u =>
        simp only [Table.sends]
        cases s.hand u <;> simp
      | _ => exact List.nodup_nil
    · intro t old u new same
      subst same
      obtain ⟨⟨t, r⟩, mem, rfl⟩ := List.mem_map.mp old
      have full := (history.delivered _ r mem).1
      cases a with
      | deliver u =>
        cases steps with
        | @deliver _ r' hand =>
          simp only [Table.sends, hand, Option.map_some, Option.toList_some, List.map_cons,
            List.map_nil, List.mem_singleton] at new
          subst new
          obtain ⟨-, -, -, -, -, -, empty⟩ := inv.hand_call hand
          exact full empty
      | _ => cases new

/-- The results that calls returned in a run, and what senders sent. -/
def results : Table → List Action → List (Nat × Int × PendingResult) :=
  emits Table.step Table.returns

def deliveries : Table → List Action → List (Nat × PendingResult) :=
  emits Table.step Table.sends

/-- Replies go where they belong. -/
structure Correlated (as : List Action) (s : Table) : Prop where
  /-- No call has two results, and none is sent two replies. -/
  once : ((results Table.new as).map (·.1)).Nodup
  sentOnce : ((deliveries Table.new as).map (·.1)).Nodup
  own : ∀ t q r, (t, q, r) ∈ results Table.new as → s.seqOf t = some q ∧
    ((∃ response, r = .ok (.response response) ∧ response.requestSeq = q) ∨
      r = .error .closed ∨
      ∃ message, r = .error (.send message) ∧ .turn t (.refuse message) ∈ as)
  /-- A response is sent only to the call that has stamped its `request_seq`. -/
  addressed : ∀ t response, (t, .ok (.response response)) ∈ deliveries Table.new as →
    ∀ u, s.seqOf u = some response.requestSeq ↔ u = t
  gone : ∀ t c q, s.calls t = some c → c.kind = .send → c.stage.finished = some q → q ∉ s.pending

private theorem countP_concat (as : List Action) (a : Action) :
    (as ++ [a]).countP draws = as.countP draws + if draws a then 1 else 0 := by
  rw [List.countP_append, List.countP_singleton]

theorem correlated (run : Run Table.step anyStep Table.new as s)
    (few : as.countP draws < 2 ^ 63) : Correlated as s := by
  have both : as.countP draws < 2 ^ 63 → Inv (as.countP draws) s ∧
      History as (results Table.new as) (deliveries Table.new as) s := by
    refine run.keeps_history (I := fun as s => as.countP draws < 2 ^ 63 →
      Inv (as.countP draws) s ∧ History as (results Table.new as) (deliveries Table.new as) s) ?_
      fun _ => ⟨inv_new, history_new⟩
    intro as s a s' before ih _ taken few
    rw [countP_concat] at few ⊢
    obtain ⟨inv, history⟩ := ih (by omega)
    have next := history_step inv history taken
    unfold results deliveries at next ⊢
    rw [before.emits_concat, before.emits_concat]
    exact ⟨inv.step few (steps_of_step taken), next⟩
  obtain ⟨inv, history⟩ := both few
  refine ⟨history.once, history.deliveredOnce, fun t q r h => ?_, fun t response h u => ?_,
    fun t c q here send finished => inv.gone here send finished⟩
  · obtain ⟨c, here, returned⟩ := history.returned t q r h
    refine ⟨seqOf_registered here (by rw [returned]; rfl), ?_⟩
    rcases history.own t q r h with (reply | closed) | refused
    · exact .inl reply
    · exact .inr (.inl closed)
    · exact .inr (.inr refused)
  · obtain ⟨-, q, seq, answers⟩ := history.delivered t _ h
    rcases answers with ⟨response', eq, rfl⟩ | closed
    · cases eq
      exact ⟨fun h => inv.alone u t _ h seq, fun h => h ▸ seq⟩
    · cases closed

/-- Two sends whose replies cross; one response comes twice, one is for an unknown request, and
the other send is dropped while its reply is on the way. -/
def crossing : List Action :=
  let reply (seq : Int) : Response := ⟨0, "response", seq, true, "threads", "", none⟩
  [.call 0 .send, .call 1 .send, .turn 0 .stamp, .turn 1 .stamp, .turn 1 .register,
    .turn 0 .register, .turn 0 .accept, .turn 1 .accept, .response (reply 2), .response (reply 9),
    .response (reply 1), .response (reply 2), .turn 0 .drop, .deliver 1, .turn 1 .resolve,
    .turn 0 .release, .deliver 0, .cancelAll]

theorem correlated_crossing : ∃ s, Run Table.step anyStep Table.new crossing s ∧
    Correlated crossing s := by
  have executes : (exec Table.step anyStep Table.new crossing).isSome = true := by decide +kernel
  obtain ⟨s, executed⟩ := Option.isSome_iff_exists.mp executes
  exact ⟨s, run_of_exec executed, correlated (run_of_exec executed) (by decide)⟩

/-! The atomic operations of the shared state are what these steps amount to. -/

/-- A sender that was taken counts as having sent already. -/
def Table.replies (s : Table) (q : Int) : OneShot PendingResult :=
  match s.sender q with
  | none => .empty
  | some t =>
    match s.hand t with
    | some r => .sent r
    | none => s.chan t

def Table.shared (s : Table) (base : Shared) : Shared :=
  { base with seq := s.seq, pending := s.pending, replies := s.replies }

/-- The operations of the shared state, where drawing a seq and registering it are two. -/
inductive Atomic : Shared → Shared → Prop where
  | idle (b : Shared) : Atomic b b
  | nextSeq (b : Shared) : Atomic b { b with seq := b.seq + 1 }
  | register (b : Shared) (q : Int) : Atomic b { b with
      pending := insert q b.pending
      replies := Function.update b.replies q .empty }
  | remove (b : Shared) (q : Int) : Atomic b (b.removePending q)
  | dispatch (b : Shared) (response : Response) :
      Atomic b (b.dispatchResponse response.requestSeq (.response response)).1
  | cancelAll (b : Shared) : Atomic b (b.cancelAllPending .closed)

/-- Drawing and registering at once are the two in sequence. -/
theorem atomic_registerPending (b : Shared) : ∃ m, Atomic b m ∧ Atomic m b.registerPending.2 :=
  ⟨_, .nextSeq b, .register _ (b.seq + 1)⟩

/-- A sender is known under the seq that its call has stamped. -/
def Owned (s : Table) : Prop := ∀ q t, s.sender q = some t → s.seqOf t = some q

private theorem Owned.step (owned : Owned s) (steps : Steps s a s') : Owned s' := by
  intro q t sender
  have kept : s'.sender = s.sender → s'.seqOf t = some q := fun same =>
    steps.seqOf_stays (owned q t (same ▸ sender))
  cases steps with
  | @turn u c turn k stage here turns =>
    cases turns with
    | @register p at_ =>
      have steps' := Steps.turn here (Turns.register at_)
      by_cases same : q = p
      · subst same
        cases (Function.update_self ..).symm.trans sender
        exact steps'.seqOf_stays (by rw [seqOf_eq here, at_]; rfl)
      · exact steps'.seqOf_stays (owned q t ((Function.update_of_ne same ..).symm.trans sender))
    | stamp | accept | acceptAsync | refuse | rollback | resolve | drop | abort | abandon
    | release => exact kept rfl
  | response response =>
    refine kept ?_
    unfold Table.dispatchResponse
    split
    · split <;> rfl
    · rfl
  | call | cancelAll | deliver | nextSeq => exact kept rfl

private theorem shared_eq {b : Shared} {base : Shared} (s : Table) (seq : s.seq = b.seq)
    (pending : s.pending = b.pending) (replies : ∀ q, s.replies q = b.replies q)
    (others : b = { base with seq := b.seq, pending := b.pending, replies := b.replies }) :
    s.shared base = b := by
  rw [others, Table.shared, seq, pending, funext replies]

private theorem atomic_remove (inv : Inv n s) (owned : Owned s) (base : Shared)
    (here : s.calls t = some c) (registered : c.stage.registered = some q) :
    (s.removePending q).shared base = (s.shared base).removePending q := by
  by_cases there : q ∈ s.pending
  · have sender := (inv.owner_eq there here (seq_of_registered registered)).2
    have chan : (s.removePending q).chan = Function.update s.chan t .closed := by
      simp only [Table.removePending, Table.dropSender, sender, there, if_true]
    have hand : s.hand t = none := by
      cases inv.held t c q here registered with
      | stored _ _ hand => exact hand
      | sending gone => exact absurd there gone
      | spent gone => exact absurd there gone
    have closes : (s.shared base).removePending q = { s.shared base with
        pending := s.pending.erase q
        replies := Function.update s.replies q .closed } := if_pos there
    rw [closes]
    refine shared_eq _ rfl rfl (fun p => ?_) rfl
    by_cases same : p = q
    · subst same
      simp only [Table.replies, Table.removePending, sender, hand, Function.update_self]
      exact (congrFun chan t).trans (Function.update_self ..)
    · change _ = Function.update s.replies q .closed p
      rw [Function.update_of_ne same]
      simp only [Table.replies, chan]
      change (match s.sender p with | none => _ | some t' => _) = _
      cases its : s.sender p with
      | none => rfl
      | some u =>
        have other : u ≠ t := by
          rintro rfl
          have := (owned p u its).symm.trans (seqOf_registered here registered)
          exact same (Option.some.inj this)
        simp only [Function.update_of_ne other]
        rfl
  · have chan : (s.removePending q).chan = s.chan := by
      simp only [Table.removePending, Table.dropSender, there, if_false]
      split <;> rfl
    have stays : (s.shared base).removePending q = s.shared base := if_neg there
    rw [stays]
    refine shared_eq _ rfl (Finset.erase_eq_of_notMem there) (fun p => ?_) rfl
    simp only [Table.replies, chan]
    rfl

private theorem atomic_register (inv : Inv n s) (base : Shared) (here : s.calls t = some c)
    (stamped : c.stage = .stamped q) :
    (s.registerPending q t).shared base = { s.shared base with
      pending := insert q s.pending
      replies := Function.update s.replies q .empty } := by
  have fresh := inv.stamped_fresh here stamped
  have chan : (s.registerPending q t).chan = s.chan := by
    simp only [Table.registerPending, Table.dropSender, fresh, if_false]
    split <;> rfl
  obtain ⟨hand, empty⟩ := inv.blank t fun d there => by
    cases here.symm.trans there
    rw [stamped]
    rfl
  refine shared_eq _ rfl rfl (fun p => ?_) rfl
  change _ = Function.update s.replies q .empty p
  by_cases same : p = q
  · subst same
    rw [Function.update_self]
    simp only [Table.replies, chan]
    simp only [Table.registerPending, Function.update_self, hand, empty]
  · rw [Function.update_of_ne same]
    simp only [Table.replies, chan]
    simp only [Table.registerPending, Function.update_of_ne same]

private theorem atomic_dispatch (inv : Inv n s) (owned : Owned s) (base : Shared)
    (response : Response) :
    (s.dispatchResponse response).shared base =
      ((s.shared base).dispatchResponse response.requestSeq (.response response)).1 := by
  by_cases there : response.requestSeq ∈ s.pending
  · obtain ⟨t, c, here, waits, sender, -⟩ := inv.owner there
    have taken : s.dispatchResponse response = { s with
        pending := s.pending.erase response.requestSeq
        hand := Function.update s.hand t (some (.ok (.response response))) } := by
      simp only [Table.dispatchResponse, sender, there, if_true]
    have sends : ((s.shared base).dispatchResponse response.requestSeq (.response response)).1 =
        { s.shared base with
          pending := s.pending.erase response.requestSeq
          replies := Function.update s.replies response.requestSeq
            (.sent (.ok (.response response))) } := congrArg Prod.fst (if_pos there)
    rw [taken, sends]
    refine shared_eq _ rfl rfl (fun p => ?_) rfl
    change _ = Function.update s.replies response.requestSeq _ p
    by_cases same : p = response.requestSeq
    · subst same
      rw [Function.update_self]
      simp only [Table.replies, sender, Function.update_self]
    · rw [Function.update_of_ne same]
      simp only [Table.replies]
      cases its : s.sender p with
      | none => rfl
      | some u =>
        have other : u ≠ t := by
          rintro rfl
          have mine := seqOf_registered here (registered_of_waits waits)
          exact same (Option.some.inj ((owned p u its).symm.trans mine))
        simp only [Function.update_of_ne other]
  · have ignored : s.dispatchResponse response = s := by
      simp only [Table.dispatchResponse, there, if_false]
      split <;> rfl
    have stays : ((s.shared base).dispatchResponse response.requestSeq (.response response)).1 =
        s.shared base := congrArg Prod.fst (if_neg there)
    rw [ignored, stays]

private theorem atomic_drain (inv : Inv n s) (owned : Owned s) (base : Shared) :
    s.drainPending.shared base = (s.shared base).cancelAllPending .closed := by
  refine shared_eq _ rfl rfl (fun q => ?_) rfl
  change _ = if q ∈ s.pending then .sent (.error .closed) else s.replies q
  by_cases there : q ∈ s.pending
  · obtain ⟨t, c, here, waits, sender, -⟩ := inv.owner there
    rw [if_pos there]
    have hand : s.drainPending.hand t = some (.error .closed) := if_pos ⟨q, there, sender⟩
    have same : s.drainPending.sender q = some t := sender
    simp only [Table.replies, same, hand]
  · rw [if_neg there]
    simp only [Table.replies]
    change (match s.sender q with | none => _ | some t' => _) = _
    cases its : s.sender q with
    | none => rfl
    | some u =>
      have hand : s.drainPending.hand u = s.hand u := by
        refine if_neg ?_
        rintro ⟨p, there', sender⟩
        cases (owned q u its).symm.trans (owned p u sender)
        exact there there'
      simp only [hand]
      rfl

private theorem atomic_deliver (base : Shared) (hand : s.hand t = some r) :
    { s with
      hand := Function.update s.hand t none
      chan := Function.update s.chan t (.sent r) }.shared base = s.shared base := by
  refine @shared_eq _ base _ rfl rfl (fun q => ?_) rfl
  change _ = s.replies q
  simp only [Table.replies]
  cases its : s.sender q with
  | none => rfl
  | some u =>
    by_cases same : u = t
    · subst same
      simp only [Function.update_self, hand]
    · simp only [Function.update_of_ne same]

private theorem atomic_draw (inv : Inv n s) (few : n + 1 < 2 ^ 63) (base : Shared) :
    s.nextSeq.2.shared base = { s.shared base with seq := s.seq + 1 } := by
  rw [nextSeq_eq inv.seq few, inv.seq]
  rfl

/-- Every step is one atomic operation of the shared state. -/
theorem Steps.atomic (inv : Inv n s) (owned : Owned s)
    (few : (n + if draws a then 1 else 0) < 2 ^ 63) (steps : Steps s a s') (base : Shared) :
    Atomic (s.shared base) (s'.shared base) := by
  cases steps with
  | call => exact .idle (s.shared base)
  | deliver hand =>
    rw [atomic_deliver base hand]
    exact .idle _
  | @turn t c turn k stage here turns =>
    change Atomic (s.shared base) (k.shared base)
    cases turns with
    | stamp =>
      rw [atomic_draw inv (by simpa [draws] using few)]
      exact .nextSeq (s.shared base)
    | register at_ =>
      rw [atomic_register inv base here at_]
      exact .register (s.shared base) _
    | rollback at_ | release at_ =>
      rw [atomic_remove inv owned base here (by rw [at_]; rfl)]
      exact .remove _ _
    | accept | acceptAsync | refuse | resolve | drop | abort | abandon => exact .idle _
  | response response =>
    rw [atomic_dispatch inv owned base response]
    exact .dispatch _ response
  | cancelAll =>
    rw [atomic_drain inv owned base]
    exact .cancelAll _
  | nextSeq =>
    rw [atomic_draw inv (by simpa [draws] using few)]
    exact .nextSeq (s.shared base)

/-- Concurrent calls change the shared state by its atomic operations only. -/
theorem atomic_run (run : Run Table.step anyStep Table.new as s)
    (few : as.countP draws < 2 ^ 63) (base : Shared) :
    Relation.ReflTransGen Atomic (Table.new.shared base) (s.shared base) := by
  have all : as.countP draws < 2 ^ 63 → Inv (as.countP draws) s ∧ Owned s ∧
      Relation.ReflTransGen Atomic (Table.new.shared base) (s.shared base) := by
    refine run.keeps_history (I := fun as s => as.countP draws < 2 ^ 63 →
      Inv (as.countP draws) s ∧ Owned s ∧
        Relation.ReflTransGen Atomic (Table.new.shared base) (s.shared base)) ?_
      fun _ => ⟨inv_new, fun q t h => (by cases h), .refl⟩
    intro as s a s' _ ih _ taken few
    rw [countP_concat] at few ⊢
    obtain ⟨inv, owned, reached⟩ := ih (by omega)
    have steps := steps_of_step taken
    exact ⟨inv.step few steps, owned.step steps, reached.tail (steps.atomic inv owned few base)⟩
  exact (all few).2.2

end LldbDebugMcp.Client.Correlation
