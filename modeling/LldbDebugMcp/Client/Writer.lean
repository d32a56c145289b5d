/- module: LldbDebugMcp/Client/Writer
   source: crates/dap-client/src/{wire,client}.rs
   digest: Calls that share one writer under a lock, and what is left of a frame that is dropped. -/

import LldbDebugMcp.Client.Wire
import LldbDebugMcp.Library.Transition

set_option autoImplicit false
set_option relaxedAutoImplicit false

namespace LldbDebugMcp.Client.Writer

open LldbDebugMcp.Client.Wire
open LldbDebugMcp.Library.Text
open LldbDebugMcp.Library.Transition

/-- How far `write_request` has come for a call. -/
inductive Stage where
  /-- Awaiting the lock of the writer. -/
  | waiting
  /-- The first `write_all`, with what is left of the header. -/
  | header (rest : Bytes)
  /-- The second `write_all`, with what is left of the body. -/
  | body (rest : Bytes)
  | flushing
  | done
  /-- Dropped or failed with the frame accepted in part. -/
  | cut
  /-- Dropped or failed with all of the frame accepted, or none of it. -/
  | ended
  deriving DecidableEq

structure Call where
  body : Bytes
  stage : Stage

namespace Call

def headerBytes (c : Call) : Bytes := encode (header c.body.length)

/-- The call holds the lock. -/
def holds (c : Call) : Bool :=
  match c.stage with
  | .header _ | .body _ | .flushing => true
  | .waiting | .done | .cut | .ended => false

/-- What the writer has still to accept of the frame of a call that holds the lock. -/
def owes (c : Call) : Bytes :=
  match c.stage with
  | .header rest => rest ++ c.body
  | .body rest => rest
  | .waiting | .flushing | .done | .cut | .ended => []

/-- Where the call goes once the writer has accepted `k` of the bytes it was given. -/
def accept (c : Call) (k : Nat) : Option (Bytes × Stage) :=
  match c.stage with
  | .header rest =>
    if 0 < k ∧ k < rest.length then some (rest.take k, .header (rest.drop k))
    else if 0 < k ∧ k = rest.length then
      some (rest, if c.body = [] then .flushing else .body c.body)
    else none
  | .body rest =>
    if 0 < k ∧ k < rest.length then some (rest.take k, .body (rest.drop k))
    else if 0 < k ∧ k = rest.length then some (rest, .flushing)
    else none
  | .waiting | .flushing | .done | .cut | .ended => none

/-- What a drop or a write error leaves behind. -/
def stop (c : Call) : Stage :=
  match c.stage with
  | .header rest => if rest = c.headerBytes then .ended else .cut
  | .body _ => .cut
  | .waiting | .flushing | .done | .cut | .ended => .ended

end Call

/-- The writer: who holds its lock, what it has accepted, and the calls. -/
structure SharedWriter where
  lock : Option Nat
  bytes : Bytes
  calls : Nat → Option Call

/-- A call begins, takes the lock, has bytes accepted, flushes, fails, or is dropped at an
await. -/
inductive Action where
  | call (t : Nat) (body : Bytes)
  | lock (t : Nat)
  | write (t : Nat) (k : Nat)
  | flush (t : Nat)
  | fail (t : Nat)
  | drop (t : Nat)

namespace SharedWriter

def new : SharedWriter := ⟨none, [], fun _ => none⟩

def setCall (w : SharedWriter) (t : Nat) (c : Call) : SharedWriter :=
  { w with calls := Function.update w.calls t (some c) }

/-- The lock is released with the guard of the call that holds it. -/
def release (w : SharedWriter) (c : Call) : SharedWriter :=
  { w with lock := if c.holds then none else w.lock }

def step (w : SharedWriter) : Action → Option SharedWriter
  | .call t body =>
    match w.calls t with
    | none => some (w.setCall t ⟨body, .waiting⟩)
    | some _ => none
  | .lock t =>
    (w.calls t).bind fun c =>
      if c.stage = .waiting ∧ w.lock = none then
        some ({ w with lock := some t }.setCall t { c with stage := .header c.headerBytes })
      else none
  | .write t k =>
    (w.calls t).bind fun c =>
      (c.accept k).map fun (chunk, stage) =>
        { w with bytes := w.bytes ++ chunk }.setCall t { c with stage := stage }
  | .flush t =>
    (w.calls t).bind fun c =>
      if c.stage = .flushing then some ((w.release c).setCall t { c with stage := .done })
      else none
  | .fail t =>
    (w.calls t).bind fun c =>
      if c.holds then some ((w.release c).setCall t { c with stage := c.stop }) else none
  | .drop t =>
    (w.calls t).bind fun c =>
      if c.holds ∨ c.stage = .waiting then
        some ((w.release c).setCall t { c with stage := c.stop })
      else none

/-- The frame that a step completes. -/
def completes (w : SharedWriter) : Action → List Bytes
  | .write t k =>
    match w.calls t with
    | some c => if (c.accept k).map (·.2) = some .flushing then [c.body] else []
    | none => []
  | _ => []

end SharedWriter

/-- The bodies of the frames that were completed in a run. -/
def frames : SharedWriter → List Action → List Bytes :=
  emits SharedWriter.step SharedWriter.completes

/-- A call is over that left a part of its frame on the wire. -/
def Torn (w : SharedWriter) : Prop := ∃ t c, w.calls t = some c ∧ c.stage = .cut

/-- The first byte of a frame is written. -/
def Begins (w : SharedWriter) : Action → Prop
  | .write t _ => ∃ c, w.calls t = some c ∧ c.stage = .header c.headerBytes
  | _ => False

/-- No frame is begun behind one that was cut short. -/
def Orderly (w : SharedWriter) (a : Action) : Prop := Begins w a → ¬ Torn w

/-- The bytes are whole frames, and perhaps the beginning of one more. -/
def Intact (bytes : Bytes) : Prop :=
  ∃ (bodies : List Bytes) (part : Bytes), bytes = bodies.flatMap frame ++ part ∧
    ∃ body, part <+: frame body ∧ part ≠ frame body

variable {w w' : SharedWriter} {t u : Nat} {c d : Call} {k : Nat} {chunk part : Bytes}
    {stage : Stage}
  {a : Action} {bodies : List Bytes}

/-- A part that is not the whole leaves something. -/
private theorem drop_ne_nil {bytes : Bytes} (within : k < bytes.length) : bytes.drop k ≠ [] := by
  rw [Ne, List.drop_eq_nil_iff]
  exact Nat.not_le.mpr within

/-- The writer accepts some bytes that a call owes, and owes the rest afterwards. -/
theorem owes_of_accept (accepts : c.accept k = some (chunk, stage)) :
    c.holds = true ∧ chunk ≠ [] ∧ c.owes = chunk ++ ({ c with stage := stage } : Call).owes ∧
      ({ c with stage := stage } : Call).holds = true ∧
      (stage = .flushing ↔ ({ c with stage := stage } : Call).owes = []) := by
  unfold Call.accept at accepts
  split at accepts
  · rename_i rest at_
    split at accepts
    · rename_i within
      cases accepts
      refine ⟨by rw [Call.holds, at_], ?_, ?_, rfl, ?_⟩
      · exact List.ne_nil_of_length_pos (by rw [List.length_take]; omega)
      · simp only [Call.owes, at_]
        rw [← List.append_assoc, List.take_append_drop]
      · simp only [Call.owes, reduceCtorEq, List.append_eq_nil_iff, false_iff, not_and]
        intro none
        exact absurd none (drop_ne_nil within.2)
    · split at accepts
      · rename_i all
        cases accepts
        have full : chunk ≠ [] := List.ne_nil_of_length_pos (by omega)
        by_cases empty : c.body = []
        · simp [Call.holds, Call.owes, at_, empty, full]
        · simp [Call.holds, Call.owes, at_, empty, full]
      · cases accepts
  · rename_i rest at_
    split at accepts
    · rename_i within
      cases accepts
      refine ⟨by rw [Call.holds, at_], ?_, ?_, rfl, ?_⟩
      · exact List.ne_nil_of_length_pos (by rw [List.length_take]; omega)
      · simp only [Call.owes, at_, List.take_append_drop]
      · simp only [Call.owes, reduceCtorEq, false_iff]
        exact drop_ne_nil within.2
    · split at accepts
      · rename_i all
        cases accepts
        have full : chunk ≠ [] := List.ne_nil_of_length_pos (by omega)
        simp [Call.holds, Call.owes, at_, full]
      · cases accepts
  all_goals cases accepts

/-- Every way the writer and its calls can go. -/
inductive Steps (w : SharedWriter) : Action → SharedWriter → Prop where
  | call {t : Nat} {body : Bytes} (fresh : w.calls t = none) :
      Steps w (.call t body) (w.setCall t ⟨body, .waiting⟩)
  | lock {t : Nat} {c : Call} (here : w.calls t = some c) (waiting : c.stage = .waiting)
      (free : w.lock = none) :
      Steps w (.lock t)
        ({ w with lock := some t }.setCall t { c with stage := .header c.headerBytes })
  | write {t k : Nat} {c : Call} {chunk : Bytes} {stage : Stage} (here : w.calls t = some c)
      (accepts : c.accept k = some (chunk, stage)) :
      Steps w (.write t k)
        ({ w with bytes := w.bytes ++ chunk }.setCall t { c with stage := stage })
  | flush {t : Nat} {c : Call} (here : w.calls t = some c) (flushing : c.stage = .flushing) :
      Steps w (.flush t) ((w.release c).setCall t { c with stage := .done })
  | fail {t : Nat} {c : Call} (here : w.calls t = some c) (holds : c.holds = true) :
      Steps w (.fail t) ((w.release c).setCall t { c with stage := c.stop })
  | drop {t : Nat} {c : Call} (here : w.calls t = some c)
      (open_ : c.holds = true ∨ c.stage = .waiting) :
      Steps w (.drop t) ((w.release c).setCall t { c with stage := c.stop })

theorem steps_of_step (taken : w.step a = some w') : Steps w a w' := by
  cases a with
  | call t body =>
    simp only [SharedWriter.step] at taken
    split at taken <;> cases taken
    exact .call ‹_›
  | lock t =>
    obtain ⟨c, here, rest⟩ := Option.bind_eq_some_iff.mp taken
    split at rest
    · rename_i free
      cases rest
      exact .lock here free.1 free.2
    · cases rest
  | write t k =>
    obtain ⟨c, here, rest⟩ := Option.bind_eq_some_iff.mp taken
    obtain ⟨⟨chunk, stage⟩, accepts, rfl⟩ := Option.map_eq_some_iff.mp rest
    exact .write here accepts
  | flush t =>
    obtain ⟨c, here, rest⟩ := Option.bind_eq_some_iff.mp taken
    split at rest <;> cases rest
    exact .flush here ‹_›
  | fail t =>
    obtain ⟨c, here, rest⟩ := Option.bind_eq_some_iff.mp taken
    split at rest <;> cases rest
    exact .fail here ‹_›
  | drop t =>
    obtain ⟨c, here, rest⟩ := Option.bind_eq_some_iff.mp taken
    split at rest <;> cases rest
    exact .drop here ‹_›

theorem holds_of_owes (owes : c.owes ≠ []) : c.holds = true := by
  unfold Call.owes at owes
  unfold Call.holds
  split at owes <;> first | exact absurd rfl owes | simp [*]

theorem owes_fresh (fresh : c.stage = .header c.headerBytes) : c.owes = frame c.body := by
  simp only [Call.owes, fresh]
  rfl

/-- What is behind the whole frames: the torn part of one that was cut short, behind which no
call has begun its frame, or the accepted part of the frame that is being written. -/
inductive Behind (w : SharedWriter) (part : Bytes) : Prop where
  | torn (torn : Torn w) (cut : ∃ body, part <+: frame body ∧ part ≠ frame body)
      (fresh : ∀ t c, w.calls t = some c → c.holds = true → c.stage = .header c.headerBytes)
  | whole (whole : ¬ Torn w)
      (rest : ∀ t c, w.calls t = some c → c.owes ≠ [] → part ++ c.owes = frame c.body)
      (none : (∀ t c, w.calls t = some c → c.owes = []) → part = [])

structure Inv (bodies : List Bytes) (w : SharedWriter) : Prop where
  lock : ∀ t, w.lock = some t ↔ ∃ c, w.calls t = some c ∧ c.holds = true
  bytes : ∃ part, w.bytes = bodies.flatMap frame ++ part ∧ Behind w part
  owing : ∀ t c, w.calls t = some c → c.holds = true → c.stage ≠ .flushing → c.owes ≠ []

private theorem inv_new : Inv [] SharedWriter.new where
  lock t := by simp [SharedWriter.new]
  bytes := by
    refine ⟨[], rfl, .whole ?_ (fun t c h => (by cases h)) fun _ => rfl⟩
    rintro ⟨t, c, h, -⟩
    cases h
  owing t c h := by cases h

theorem Behind.intact {part : Bytes} (behind : Behind w part) :
    ∃ body, part <+: frame body ∧ part ≠ frame body := by
  cases behind with
  | torn _ cut => exact cut
  | whole _ rest none =>
    by_cases some_ : ∀ t c, w.calls t = some c → c.owes = []
    · rw [none some_]
      exact ⟨[], List.nil_prefix, (List.ne_nil_of_length_pos (frame_pos [])).symm⟩
    · simp only [not_forall] at some_
      obtain ⟨t, c, here, owes⟩ := some_
      have whole := rest t c here owes
      refine ⟨c.body, ⟨c.owes, whole⟩, fun same => owes ?_⟩
      rw [← same] at whole
      exact List.append_right_eq_self.mp whole

theorem Inv.intact (inv : Inv bodies w) : Intact w.bytes := by
  obtain ⟨part, eq, behind⟩ := inv.bytes
  exact ⟨bodies, part, eq, behind.intact⟩

/-! What each step preserves. -/

@[simp] theorem setCall_self (w : SharedWriter) (t : Nat) (c : Call) :
    (w.setCall t c).calls t = some c := Function.update_self ..

theorem setCall_other (c : Call) (other : u ≠ t) : (w.setCall t c).calls u = w.calls u :=
  Function.update_of_ne other ..

theorem setCall_cases (there : (w.setCall t c).calls u = some d) :
    (u = t ∧ d = c) ∨ (u ≠ t ∧ w.calls u = some d) := by
  by_cases same : u = t
  · subst same
    rw [setCall_self] at there
    exact .inl ⟨rfl, (Option.some.inj there).symm⟩
  · rw [setCall_other c same] at there
    exact .inr ⟨same, there⟩

/-- Only one call holds the lock. -/
theorem Inv.alone (inv : Inv bodies w) (here : w.calls t = some c) (holds : c.holds = true)
    (there : w.calls u = some d) (holds' : d.holds = true) : u = t := by
  have mine := (inv.lock t).mpr ⟨c, here, holds⟩
  have its := (inv.lock u).mpr ⟨d, there, holds'⟩
  exact Option.some.inj (its.symm.trans mine)

theorem Inv.free (inv : Inv bodies w) (free : w.lock = none) (there : w.calls u = some d) :
    d.holds = false := by
  rw [← Bool.not_eq_true]
  intro holds
  cases free.symm.trans ((inv.lock u).mpr ⟨d, there, holds⟩)

private theorem torn_setCall (kept : ∀ c', w.calls t = some c' → c'.stage ≠ .cut)
    (uncut : c.stage ≠ .cut) : Torn (w.setCall t c) ↔ Torn w := by
  constructor
  · rintro ⟨u, d, there, cut⟩
    rcases setCall_cases there with ⟨-, rfl⟩ | ⟨-, there⟩
    · exact absurd cut uncut
    · exact ⟨u, d, there, cut⟩
  · rintro ⟨u, d, there, cut⟩
    have other : u ≠ t := by
      rintro rfl
      exact kept d there cut
    exact ⟨u, d, (setCall_other c other).trans there, cut⟩

theorem uncut_of_holds (holds : c.holds = true) : c.stage ≠ .cut := by
  intro cut
  simp [Call.holds, cut] at holds

/-- A call that neither held the lock before nor does now. -/
private theorem inv_idle (inv : Inv bodies w) (idle : c.holds = false)
    (before : ∀ c', w.calls t = some c' → c'.holds = false) (uncut : c.stage ≠ .cut)
    (kept : ∀ c', w.calls t = some c' → c'.stage ≠ .cut) : Inv bodies (w.setCall t c) := by
  have owes : c.owes = [] := by
    by_contra owes
    cases idle.symm.trans (holds_of_owes owes)
  have held : ∀ u d, (w.setCall t c).calls u = some d → d.holds = true →
      w.calls u = some d := by
    intro u d there holds
    rcases setCall_cases there with ⟨-, rfl⟩ | ⟨-, there⟩
    · cases idle.symm.trans holds
    · exact there
  have back : ∀ u d, w.calls u = some d → d.holds = true →
      (w.setCall t c).calls u = some d := by
    intro u d there holds
    have other : u ≠ t := by
      rintro rfl
      cases (before d there).symm.trans holds
    exact (setCall_other c other).trans there
  refine ⟨fun u => (inv.lock u).trans ?_, ?_, fun u d there holds =>
    inv.owing u d (held u d there holds) holds⟩
  · exact ⟨fun ⟨d, there, holds⟩ => ⟨d, back u d there holds, holds⟩,
      fun ⟨d, there, holds⟩ => ⟨d, held u d there holds, holds⟩⟩
  · obtain ⟨part, eq, behind⟩ := inv.bytes
    refine ⟨part, eq, ?_⟩
    have torn := torn_setCall kept uncut
    cases behind with
    | torn torn' cut fresh =>
      exact .torn (torn.mpr torn') cut fun u d there holds =>
        fresh u d (held u d there holds) holds
    | whole whole rest none =>
      refine .whole (fun h => whole (torn.mp h)) (fun u d there owes => ?_) fun all => ?_
      · exact rest u d (held u d there (holds_of_owes owes)) owes
      · refine none fun u d there => ?_
        by_contra owes
        exact owes (all u d (back u d there (holds_of_owes owes)))

/-- Only the call that holds the lock owes bytes. -/
private theorem Inv.owes_alone (inv : Inv bodies w) (here : w.calls t = some c)
    (holds : c.holds = true) (there : w.calls u = some d) (owes : d.owes ≠ []) : u = t :=
  inv.alone here holds there (holds_of_owes owes)

private theorem inv_lock (inv : Inv bodies w) (here : w.calls t = some c)
    (waiting : c.stage = .waiting) (free : w.lock = none) :
    Inv bodies ({ w with lock := some t }.setCall t { c with stage := .header c.headerBytes }) := by
  have silent : ∀ u d, w.calls u = some d → d.owes = [] := by
    intro u d there
    by_contra owes
    cases (inv.free free there).symm.trans (holds_of_owes owes)
  have full : ({ c with stage := .header c.headerBytes } : Call).owes ≠ [] := by
    rw [owes_fresh rfl]
    exact List.ne_nil_of_length_pos (frame_pos c.body)
  have torn : Torn ({ w with lock := some t }.setCall t { c with stage := .header c.headerBytes }) ↔
      Torn w := by
    refine torn_setCall (w := { w with lock := some t }) (fun c' h => ?_) fun h => by cases h
    cases here.symm.trans h
    exact fun cut => by cases waiting.symm.trans cut
  obtain ⟨part, eq, behind⟩ := inv.bytes
  refine ⟨fun u => ?_, ⟨part, eq, ?_⟩, fun u d there holds _ => ?_⟩
  · constructor
    · rintro ⟨⟩
      exact ⟨_, setCall_self .., rfl⟩
    · rintro ⟨d, there, holds⟩
      rcases setCall_cases there with ⟨rfl, -⟩ | ⟨-, there⟩
      · rfl
      · cases (inv.free free there).symm.trans holds
  · cases behind with
    | torn torn' cut fresh =>
      refine .torn (torn.mpr torn') cut fun u d there holds => ?_
      rcases setCall_cases there with ⟨-, rfl⟩ | ⟨-, there⟩
      · rfl
      · cases (inv.free free there).symm.trans holds
    | whole whole rest none =>
      obtain rfl := none silent
      refine .whole (fun h => whole (torn.mp h)) (fun u d there owes => ?_) fun _ => rfl
      rcases setCall_cases there with ⟨-, rfl⟩ | ⟨-, there⟩
      · rw [owes_fresh rfl]
        rfl
      · exact absurd (silent u d there) owes
  · rcases setCall_cases there with ⟨-, rfl⟩ | ⟨-, there⟩
    · exact full
    · cases (inv.free free there).symm.trans holds

private theorem completes_write (here : w.calls t = some c)
    (accepts : c.accept k = some (chunk, stage)) :
    w.completes (.write t k) = if stage = .flushing then [c.body] else [] := by
  simp only [SharedWriter.completes, here, accepts, Option.map_some, Option.some.injEq]

/-- The writer accepts bytes of the frame behind the whole ones. -/
private theorem inv_write (inv : Inv bodies w) (here : w.calls t = some c)
    (accepts : c.accept k = some (chunk, stage)) (orderly : Orderly w (.write t k)) :
    Inv (bodies ++ if stage = .flushing then [c.body] else [])
      ({ w with bytes := w.bytes ++ chunk }.setCall t { c with stage := stage }) := by
  obtain ⟨holds, some_, split, holds', flushed⟩ := owes_of_accept accepts
  obtain ⟨part, eq, behind⟩ := inv.bytes
  have owes : c.owes ≠ [] := by
    rw [split]
    exact List.append_ne_nil_of_left_ne_nil some_ _
  have other : ∀ u d, u ≠ t → w.calls u = some d → d.holds = false := by
    intro u d other there
    rw [← Bool.not_eq_true]
    exact fun its => other (inv.alone here holds there its)
  cases behind with
  | torn torn cut fresh => exact absurd torn (orderly ⟨c, here, fresh t c here holds⟩)
  | whole whole rest none =>
    have frame_eq : part ++ c.owes = frame c.body := rest t c here owes
    rw [split, ← List.append_assoc] at frame_eq
    have torn : ¬ Torn ({ w with bytes := w.bytes ++ chunk }.setCall t
        { c with stage := stage }) := by
      rw [torn_setCall (w := { w with bytes := w.bytes ++ chunk }) (fun c' h => ?_)
        (uncut_of_holds holds')]
      · exact whole
      · cases here.symm.trans h
        exact uncut_of_holds holds
    have mine : ∀ u d, ({ w with bytes := w.bytes ++ chunk }.setCall t
        { c with stage := stage }).calls u = some d → d.holds = true →
        d = { c with stage := stage } := by
      intro u d there holds
      rcases setCall_cases there with ⟨-, rfl⟩ | ⟨apart, there⟩
      · rfl
      · cases (other u d apart there).symm.trans holds
    refine ⟨fun u => (inv.lock u).trans ?_, ?_, fun u d there holds open_ => ?_⟩
    · constructor
      · rintro ⟨d, there, its⟩
        obtain rfl := inv.alone here holds there its
        exact ⟨_, setCall_self .., holds'⟩
      · rintro ⟨d, there, its⟩
        rcases setCall_cases there with ⟨rfl, -⟩ | ⟨-, there⟩
        · exact ⟨c, here, holds⟩
        · exact ⟨d, there, its⟩
    · by_cases done : stage = .flushing
      · have all := flushed.mp done
        rw [all, List.append_nil] at frame_eq
        refine ⟨[], ?_, .whole torn (fun u d there owes => ?_) fun _ => rfl⟩
        · rw [if_pos done, List.flatMap_append, List.flatMap_singleton, ← frame_eq,
            List.append_nil, ← List.append_assoc, ← eq]
          rfl
        · rw [mine u d there (holds_of_owes owes)] at owes
          exact absurd all owes
      · refine ⟨part ++ chunk, ?_, .whole torn (fun u d there owes => ?_) fun all => ?_⟩
        · rw [if_neg done, List.append_nil, ← List.append_assoc, ← eq]
          rfl
        · obtain rfl := mine u d there (holds_of_owes owes)
          exact frame_eq
        · exact absurd (flushed.mpr (all t _ (setCall_self ..))) done
    · obtain rfl := mine u d there holds
      exact fun none => open_ (flushed.mpr none)

/-- The holder of the lock stops: in the middle of its frame, or not. -/
private theorem inv_release (inv : Inv bodies w) (here : w.calls t = some c)
    (holds : c.holds = true) (idle : ({ c with stage := stage } : Call).holds = false)
    (ends : (stage = .cut ∧ c.stage ≠ .flushing ∧ c.stage ≠ .header c.headerBytes) ∨
      (stage ≠ .cut ∧ (c.stage = .flushing ∨ c.stage = .header c.headerBytes))) :
    Inv bodies ((w.release c).setCall t { c with stage := stage }) := by
  have none_holds : ∀ u d, ((w.release c).setCall t { c with stage := stage }).calls u = some d →
      d.holds = false := by
    intro u d there
    rcases setCall_cases there with ⟨-, rfl⟩ | ⟨apart, there⟩
    · exact idle
    · rw [← Bool.not_eq_true]
      exact fun its => apart (inv.alone here holds there its)
  have free : ((w.release c).setCall t { c with stage := stage }).lock = none := if_pos holds
  have silent : ∀ u d, ((w.release c).setCall t { c with stage := stage }).calls u = some d →
      d.owes ≠ [] → False := by
    intro u d there owes
    cases (none_holds u d there).symm.trans (holds_of_owes owes)
  obtain ⟨part, eq, behind⟩ := inv.bytes
  refine ⟨fun u => ?_, ⟨part, eq, ?_⟩, fun u d there holds => ?_⟩
  · rw [free]
    constructor
    · exact fun h => by cases h
    · rintro ⟨d, there, its⟩
      cases (none_holds u d there).symm.trans its
  · rcases ends with ⟨rfl, unflushed, begun⟩ | ⟨uncut, ends⟩
    · have torn : Torn ((w.release c).setCall t { c with stage := .cut }) :=
        ⟨t, _, setCall_self .., rfl⟩
      refine .torn torn ?_ fun u d there its => ?_
      · cases behind with
        | torn _ cut => exact cut
        | whole _ rest _ =>
          have owes := inv.owing t c here holds unflushed
          have whole := rest t c here owes
          refine ⟨c.body, ⟨c.owes, whole⟩, fun same => owes ?_⟩
          rw [← same] at whole
          exact List.append_right_eq_self.mp whole
      · cases (none_holds u d there).symm.trans its
    · have torn : Torn ((w.release c).setCall t { c with stage := stage }) ↔ Torn w := by
        refine torn_setCall (w := w.release c) (fun c' h => ?_) uncut
        cases here.symm.trans h
        exact uncut_of_holds holds
      cases behind with
      | torn torn' cut fresh =>
        refine .torn (torn.mpr torn') cut fun u d there its => ?_
        cases (none_holds u d there).symm.trans its
      | whole whole rest none =>
        have nothing : part = [] := by
          rcases ends with flushing | fresh
          · refine none fun u d there => ?_
            by_contra owes
            obtain rfl := inv.owes_alone here holds there owes
            cases here.symm.trans there
            simp [Call.owes, flushing] at owes
          · have owes := owes_fresh fresh
            have pos := List.ne_nil_of_length_pos (frame_pos c.body)
            have whole := rest t c here (owes ▸ pos)
            rw [owes] at whole
            exact List.append_left_eq_self.mp whole
        exact .whole (fun h => whole (torn.mp h))
          (fun u d there owes => (silent u d there owes).elim) fun _ => nothing
  · cases (none_holds u d there).symm.trans holds

private theorem stop_idle (c : Call) : ({ c with stage := c.stop } : Call).holds = false := by
  obtain ⟨body, stage⟩ := c
  cases stage with
  | header rest =>
    simp only [Call.stop]
    split <;> rfl
  | waiting | body | flushing | done | cut | ended => rfl

private theorem stop_ends (holds : c.holds = true) :
    (c.stop = .cut ∧ c.stage ≠ .flushing ∧ c.stage ≠ .header c.headerBytes) ∨
      (c.stop ≠ .cut ∧ (c.stage = .flushing ∨ c.stage = .header c.headerBytes)) := by
  unfold Call.holds at holds
  unfold Call.stop
  split at holds
  · rename_i rest at_
    simp only [at_]
    by_cases fresh : rest = c.headerBytes
    · simp [fresh]
    · simp [fresh]
  · rename_i rest at_
    simp [at_]
  · rename_i at_
    simp [at_]
  all_goals cases holds

/-- Whole frames stay in front of what is behind them, as long as the steps are orderly. -/
theorem Inv.step (inv : Inv bodies w) (orderly : Orderly w a) (steps : Steps w a w') :
    Inv (bodies ++ w.completes a) w' := by
  cases steps with
  | call fresh =>
    change Inv (bodies ++ []) _
    rw [List.append_nil]
    refine inv_idle inv rfl (fun c' h => ?_) (fun h => by cases h) fun c' h => ?_ <;>
      cases fresh.symm.trans h
  | lock here waiting free =>
    change Inv (bodies ++ []) _
    rw [List.append_nil]
    exact inv_lock inv here waiting free
  | write here accepts =>
    rw [completes_write here accepts]
    exact inv_write inv here accepts orderly
  | @flush t c here flushing =>
    change Inv (bodies ++ []) _
    rw [List.append_nil]
    have holds : c.holds = true := by rw [Call.holds, flushing]
    exact inv_release inv here holds rfl (.inr ⟨fun h => (by cases h), .inl flushing⟩)
  | @fail t c here holds =>
    change Inv (bodies ++ []) _
    rw [List.append_nil]
    exact inv_release inv here holds (stop_idle c) (stop_ends holds)
  | @drop t c here open_ =>
    change Inv (bodies ++ []) _
    rw [List.append_nil]
    rcases open_ with holds | waiting
    · exact inv_release inv here holds (stop_idle c) (stop_ends holds)
    · have idle : c.holds = false := by rw [Call.holds, waiting]
      have kept : w.release c = w := by simp [SharedWriter.release, idle]
      rw [kept]
      refine inv_idle inv (stop_idle c) (fun c' h => ?_) (fun h => ?_) fun c' h => ?_
      · cases here.symm.trans h
        exact idle
      · simp [Call.stop, waiting] at h
      · cases here.symm.trans h
        exact fun cut => by cases waiting.symm.trans cut

variable {as bs cs : List Action} {m : SharedWriter}

private theorem inv_run (run : Run SharedWriter.step Orderly SharedWriter.new as w) :
    Inv (frames SharedWriter.new as) w := by
  refine run.keeps_history (I := fun as w => Inv (frames SharedWriter.new as) w) ?_ inv_new
  intro as w a w' before inv orderly taken
  unfold frames at inv ⊢
  rw [before.emits_concat]
  exact inv.step orderly (steps_of_step taken)

/-- Behind a frame that was cut short, an orderly step writes nothing. -/
private theorem torn_step (inv : Inv bodies w) (torn : Torn w) (orderly : Orderly w a)
    (steps : Steps w a w') : Torn w' ∧ w'.bytes = w.bytes := by
  have kept : ∀ {t : Nat} {c c' : Call} {k : SharedWriter}, w.calls t = some c → c.stage ≠ .cut →
      k.calls = w.calls → Torn (k.setCall t c') := by
    intro t c c' k here uncut calls
    obtain ⟨u, d, there, cut⟩ := torn
    have other : u ≠ t := by
      rintro rfl
      cases here.symm.trans there
      exact uncut cut
    exact ⟨u, d, (setCall_other c' other).trans ((congrFun calls u).trans there), cut⟩
  cases steps with
  | @call t body fresh =>
    obtain ⟨u, d, there, cut⟩ := torn
    have other : u ≠ t := by
      rintro rfl
      cases fresh.symm.trans there
    exact ⟨⟨u, d, (setCall_other _ other).trans there, cut⟩, rfl⟩
  | lock here waiting =>
    exact ⟨kept here (fun cut => by cases waiting.symm.trans cut) rfl, rfl⟩
  | @write t k c chunk stage here accepts =>
    obtain ⟨part, -, behind⟩ := inv.bytes
    cases behind with
    | torn _ _ fresh =>
      exact absurd torn (orderly ⟨c, here, fresh t c here (owes_of_accept accepts).1⟩)
    | whole whole => exact absurd torn whole
  | flush here flushing =>
    exact ⟨kept here (fun cut => by cases flushing.symm.trans cut) rfl, rfl⟩
  | fail here holds => exact ⟨kept here (uncut_of_holds holds) rfl, rfl⟩
  | drop here open_ =>
    refine ⟨kept here ?_ rfl, rfl⟩
    rcases open_ with holds | waiting
    · exact uncut_of_holds holds
    · exact fun cut => by cases waiting.symm.trans cut

/-- As long as no frame is begun behind one that was cut short, the bytes are the completed
frames in order, and perhaps the beginning of one more; and behind a frame that was cut short
nothing is written. -/
theorem frames_intact (run : Run SharedWriter.step Orderly SharedWriter.new as w) :
    (∃ part, w.bytes = (frames SharedWriter.new as).flatMap frame ++ part ∧
      ∃ body, part <+: frame body ∧ part ≠ frame body) ∧
    ∀ bs cs m, as = bs ++ cs → Run SharedWriter.step Orderly SharedWriter.new bs m → Torn m →
      w.bytes = m.bytes := by
  constructor
  · obtain ⟨part, eq, behind⟩ := (inv_run run).bytes
    exact ⟨part, eq, behind.intact⟩
  · rintro bs cs m rfl first torn
    obtain ⟨m', first', second⟩ := run.split
    obtain rfl := first.last_eq first'
    have all : (∃ bodies, Inv bodies w) ∧ Torn w ∧ w.bytes = m.bytes := by
      refine second.keeps (I := fun w => (∃ bodies, Inv bodies w) ∧ Torn w ∧ w.bytes = m.bytes) ?_
        ⟨⟨_, inv_run first⟩, torn, rfl⟩
      rintro w a w' ⟨⟨bodies, inv⟩, torn, same⟩ orderly taken
      have steps := steps_of_step taken
      obtain ⟨torn', bytes⟩ := torn_step inv torn orderly steps
      exact ⟨⟨_, inv.step orderly steps⟩, torn', bytes.trans same⟩
    exact all.2.2

/-- One call is dropped after the first byte of its frame was accepted. -/
def droppedInside : List Action :=
  [.call 0 [123, 125], .lock 0, .write 0 1, .drop 0]

/-- Then another call writes all of its frame. -/
def nextFrame : List Action :=
  [.call 1 [123, 125], .lock 1, .write 1 21, .write 1 2, .flush 1]

private theorem not_torn_setCall (whole : ¬ Torn w) (uncut : c.stage ≠ .cut) :
    ¬ Torn (w.setCall t c) := by
  rintro ⟨u, d, there, cut⟩
  rcases setCall_cases there with ⟨-, rfl⟩ | ⟨-, there⟩
  · exact uncut cut
  · exact whole ⟨u, d, there, cut⟩

theorem frames_intact_dropped : ∃ w : SharedWriter, w.bytes = [67] ∧
    ∃ part, w.bytes = (frames SharedWriter.new droppedInside).flatMap frame ++ part ∧
      ∃ body, part <+: frame body ∧ part ≠ frame body := by
  have whole : ¬ Torn SharedWriter.new := by
    rintro ⟨t, c, here, -⟩
    cases here
  have first : SharedWriter.new.step (.call 0 [123, 125]) =
      some (SharedWriter.new.setCall 0 ⟨[123, 125], .waiting⟩) := rfl
  have waiting : ¬ Torn (SharedWriter.new.setCall 0 ⟨[123, 125], .waiting⟩) :=
    not_torn_setCall whole fun h => by cases h
  have run : Run SharedWriter.step Orderly SharedWriter.new droppedInside _ :=
    .cons (fun _ => whole) first (.cons (fun _ => waiting) rfl
      (.cons (fun _ => not_torn_setCall waiting fun h => by cases h) rfl
        (.cons (fun h => h.elim) rfl (.nil _))))
  exact ⟨_, rfl, (frames_intact run).1⟩

private theorem frame_head (body : Bytes) : ∃ tail, frame body = 67 :: 111 :: tail := ⟨_, rfl⟩

/-- The first byte of one frame and then all of another. -/
private theorem not_intact_pair (body : Bytes) : ¬ Intact (67 :: frame body) := by
  rintro ⟨bodies, part, eq, b, ⟨rest, whole⟩, -⟩
  obtain ⟨tail, head⟩ := frame_head body
  rw [head] at eq
  have second : ∀ {xs : Bytes} (c : Bytes), frame c ++ xs ≠ 67 :: 67 :: 111 :: tail := by
    intro xs c same
    obtain ⟨tail', head'⟩ := frame_head c
    rw [head'] at same
    simp at same
  cases bodies with
  | nil =>
    rw [List.flatMap_nil, List.nil_append] at eq
    rw [← eq] at whole
    obtain ⟨tail', head'⟩ := frame_head b
    rw [head'] at whole
    simp at whole
  | cons c bodies =>
    rw [List.flatMap_cons, List.append_assoc] at eq
    exact second c eq.symm

theorem not_intact : ¬ ∀ as w, Run SharedWriter.step anyStep SharedWriter.new as w →
    Intact w.bytes := by
  intro all
  have observed : (exec SharedWriter.step anyStep SharedWriter.new
      (droppedInside ++ nextFrame)).map (·.bytes) = some (67 :: frame [123, 125]) := by
    decide +kernel
  obtain ⟨w, executed, bytes⟩ := Option.map_eq_some_iff.mp observed
  have intact := all _ w (run_of_exec executed)
  rw [bytes] at intact
  exact not_intact_pair _ intact

end LldbDebugMcp.Client.Writer
