/- module: LldbDebugMcp/Backend/Child
   source: crates/lldb-backend/src/{backend,subprocess}.rs
   digest: Who takes and who kills the child process of a connection. -/

import LldbDebugMcp.Backend.Stages

set_option autoImplicit false
set_option relaxedAutoImplicit false

namespace LldbDebugMcp.Backend.Child

open LldbDebugMcp.Library.Effect
open LldbDebugMcp.Library.Transition
open LldbDebugMcp.Backend.Operations
open LldbDebugMcp.Backend.Adapter
open LldbDebugMcp.Backend.Steps
open LldbDebugMcp.Backend.Stages

variable {c c' : Connection} {a : Action} {f : Fut} {t : Nat}

/-- A poll does not touch the child, except by the operations for it. -/
private theorem child_of_advances {choice : Choice} {f' : Fut} (h : Advances c f choice c' f') :
    (c.child = false → c'.child = false) ∧ (c.killed = true → c'.killed = true) ∧
    (c.exited = true → c'.exited = true) := by
  cases h with
  | tookChild => exact ⟨fun _ => rfl, id, id⟩
  | killed => exact ⟨id, fun _ => rfl, id⟩
  | _ => exact ⟨id, id, id⟩

private theorem dropFut_child (c : Connection) (f : Fut) :
    (c.dropFut f).child = c.child ∧ (c.dropFut f).killed = c.killed ∧
    (c.dropFut f).exited = c.exited := by
  unfold Connection.dropFut
  split <;> exact ⟨rfl, rfl, rfl⟩

/-- A child that is taken, killed or gone stays so. -/
theorem child_of_moves (moves : Moves c a c') :
    (c.child = false → c'.child = false) ∧ (c.killed = true → c'.killed = true) ∧
    (c.exited = true → c'.exited = true) := by
  cases moves with
  | @cancel t f =>
    obtain ⟨child, killed, exited⟩ := dropFut_child c f
    exact ⟨child.trans, killed.trans, exited.trans⟩
  | poll here advances =>
    obtain ⟨child, killed, exited⟩ := child_of_advances advances
    exact ⟨child, killed, exited⟩
  | childExit => exact ⟨id, id, fun _ => rfl⟩
  | start | finish | pullOutput | pullTerminated | receive | readError | proceed | stderr =>
    exact ⟨id, id, id⟩

/-- What the stage of a call says about the child. -/
def ChildAt : Stage → Connection → Prop
  | .took, c | .missed, c => c.child = false
  | .killed, c => c.killed = true
  | _, _ => True

private theorem childAt_moves {g : Stage} (at_ : ChildAt g c) (moves : Moves c a c') :
    ChildAt g c' := by
  obtain ⟨child, killed, -⟩ := child_of_moves moves
  cases g with
  | took | missed => exact child at_
  | killed => exact killed at_
  | other | waited | failing => trivial

private theorem childAt_performs {g : Stage} {i : Op} {r : i.Result} (at_ : ChildAt g c')
    (performs : Performs c i r c') : ChildAt (stageAfter g i r) c' := by
  cases g with
  | other =>
    cases i with
    | takeChild => cases r <;> exact performs.2
    | _ => trivial
  | waited =>
    cases i with
    | send => cases r <;> trivial
    | _ => trivial
  | took =>
    cases i with
    | startKill => exact performs
    | _ => exact at_
  | failing | missed | killed => exact at_

private theorem childAt_follows (served : Served c) (here : c.calls t = some f) :
    Follows stageOk stageAfter stageDone ChildAt c f :=
  served.follows (R := ChildAt) call_follows (fun _ => trivial)
    (fun _ _ _ _ at_ moves => childAt_moves at_ moves)
    (fun _ _ _ _ _ at_ performs => childAt_performs at_ performs) t f here

/-- The call has taken the child and kills it next. -/
def Killing (c : Connection) (t : Nat) : Prop :=
  ∃ f next, c.calls t = some f ∧ f.await = .running ∧ f.program = .op .startKill next

/-- A call that took the child stays at the kill until it has made it. -/
private theorem killing_moves (killing : Killing c t) (moves : Moves c a c') :
    c'.killed = true ∨ Killing c' t := by
  obtain ⟨f, next, here, running, at_⟩ := killing
  have update : ∀ {k : Connection} {s : Nat} {slot : Option Fut}, k.calls = c.calls → t ≠ s →
      Killing (k.setCall s slot) t := fun calls ne =>
    ⟨f, next, (Function.update_of_ne ne _ _).trans (calls ▸ here), running, at_⟩
  have alone : ∀ {s : Nat} {g : Fut}, c.calls s = some g → t ≠ s ∨ g = f := by
    intro s g there
    by_cases same : t = s
    · subst same
      exact .inr (Option.some.inj (there.symm.trans here))
    · exact .inl same
  cases moves with
  | @start s program fresh =>
    refine .inr (update rfl ?_)
    rintro rfl
    cases here.symm.trans fresh
  | @cancel s g there suspended =>
    rcases alone there with ne | rfl
    · exact .inr (update (pollStep_dropFut c g).calls ne)
    · simp [Fut.suspended, running, at_] at suspended
  | @finish s g reply there done =>
    rcases alone there with ne | rfl
    · exact .inr (update rfl ne)
    · cases at_.symm.trans done
  | @poll s choice g g' k there advances =>
    rcases alone there with ne | rfl
    · exact .inr (update (pollStep_of_advances advances).calls ne)
    · cases advances with
      | killed => exact .inl rfl
      | registered _ other | registeredAsync _ other | latched _ other | parked _ other
      | registeredStop _ other | gotReply _ other | gotStop _ other | stderr _ other
      | tookChild _ other | reaped _ other | accepted _ other | acceptedAsync _ other
      | refused _ other | refusedAsync _ other | replied _ other | woken _ other =>
        cases at_.symm.trans other
  | pullOutput | pullTerminated | receive | readError | proceed | childExit | stderr =>
    exact .inr ⟨f, next, here, running, at_⟩

/-- The call that takes the child kills it next. -/
private theorem killing_of_taken {next : Bool → Dap Reply} (served : Served c)
    (here : c.calls t = some f) (at_ : f.program = .op .takeChild next) (child : c.child = true) :
    Killing ({ c with child := false }.setCall t (some (f.goOn (next c.child)))) t := by
  obtain ⟨g, safe, -⟩ := childAt_follows served here
  rw [at_] at safe
  cases g with
  | other =>
    have took : Program.Safe stageOk stageAfter stageDone .took (next true) := safe.2 true
    cases program : next true with
    | done reply =>
      rw [program] at took
      exact absurd took id
    | op i rest =>
      rw [program] at took
      cases i with
      | startKill =>
        refine ⟨f.goOn (next c.child), rest, Function.update_self _ _ _, rfl, ?_⟩
        rw [child]
        exact program
      | _ => exact absurd took.1 id
  | waited | failing | took | missed | killed => exact absurd safe.1 id

/-- A child that was taken is killed, or its taker is about to kill it. -/
theorem killed_or_killing (served : Served c) (gone : c.child = false) :
    c.killed = true ∨ ∃ t, Killing c t := by
  refine served.keeps (I := fun c => c.child = false → c.killed = true ∨ ∃ t, Killing c t)
    (fun pid h => by cases h) ?_ gone
  intro c a c' served ih called moves gone
  cases child : c.child with
  | false =>
    rcases ih child with killed | ⟨t, killing⟩
    · exact .inl ((child_of_moves moves).2.1 killed)
    · exact (killing_moves killing moves).imp_right fun h => ⟨t, h⟩
  | true =>
    cases moves with
    | @cancel t f =>
      cases child.symm.trans ((dropFut_child c f).1.symm.trans gone)
    | @poll t choice f f' k here advances =>
      cases advances with
      | tookChild ready at_ => exact .inr ⟨t, killing_of_taken served here at_ child⟩
      | _ => cases child.symm.trans gone
    | start | finish | pullOutput | pullTerminated | receive | readError | proceed | childExit
    | stderr => cases child.symm.trans gone

/-- A disconnect that awaits the exit of the child has killed it. -/
theorem killed_of_waiting {next : Unit → Dap Reply} (served : Served c)
    (here : c.calls t = some f) (at_ : f.program = .op .waitChild next) : c.killed = true := by
  obtain ⟨g, safe, child⟩ := childAt_follows served here
  rw [at_] at safe
  cases g with
  | killed => exact child
  | other | waited | failing | took | missed => exact absurd safe.1 id

/-- A disconnect that is done has killed the child, or another call has or is about to. -/
theorem killed_of_disconnected (served : Served c) (here : c.calls t = some f)
    (done : f.program = .done .disconnect) : c.killed = true ∨ ∃ t', Killing c t' := by
  obtain ⟨g, safe, child⟩ := childAt_follows served here
  rw [done] at safe
  cases g with
  | missed => exact killed_or_killing served child
  | killed => exact .inl child
  | other => exact absurd rfl safe
  | waited | failing | took => exact absurd safe id

end LldbDebugMcp.Backend.Child
