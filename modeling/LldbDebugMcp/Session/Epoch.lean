/- module: LldbDebugMcp/Session/Epoch
   source: crates/mcp-session/src/manager.rs
   digest: A guarded write takes effect exactly when no reset came since its generation was read. -/

import LldbDebugMcp.Library.Transition
import LldbDebugMcp.Session.Operation

set_option autoImplicit false
set_option relaxedAutoImplicit false

namespace LldbDebugMcp.Session.Epoch

open LldbDebugMcp.Library.Transition
open LldbDebugMcp.Session.Manager
open LldbDebugMcp.Session.Operation

/-- The session, and the generation that each pump or handler last read. -/
structure Holders where
  session : SessionManager
  held : Nat → Option UInt64

inductive Action where
  /-- A pump or a handler reads the generation. -/
  | read (holder : Nat)
  /-- The guarded writes, with the generation the caller holds. -/
  | setStateIfHeld (holder : Nat) (state : State)
  | terminateIfHeld (holder : Nat) (code : Option Int)
  | setExitCode (code : Int)
  /-- Any other write, the resets among them. -/
  | write (op : SessionOp)

def Action.isReset : Action → Bool
  | .write op => op.isReset
  | _ => false

def start : Holders := ⟨SessionManager.new, fun _ => none⟩

def step (s : Holders) : Action → Option Holders
  | .read holder =>
    some { s with held := Function.update s.held holder (some s.session.generation) }
  | .setStateIfHeld holder state =>
    (s.held holder).map fun g =>
      { s with session := (s.session.setStateIfGeneration g state).1 }
  | .terminateIfHeld holder code =>
    (s.held holder).map fun g =>
      { s with session := (s.session.terminateIfGeneration g code).1 }
  | .setExitCode code => some { s with session := { s.session with exitCode := some code } }
  | .write op => some { s with session := op.apply s.session }

/-- The resets among the actions. -/
def resets (as : List Action) : Nat := as.countP Action.isReset

variable {s t : Holders} {a : Action} {as : List Action} {holder : Nat} {g : UInt64}

/-- A step moves the epoch by one exactly when it is a reset. -/
private theorem generation_step (taken : step s a = some t) :
    t.session.generation = s.session.generation + UInt64.ofNat (resets [a]) := by
  cases a with
  | read holder =>
    obtain rfl := Option.some.inj taken
    exact (UInt64.add_zero _).symm
  | setStateIfHeld holder state =>
    obtain ⟨g, -, rfl⟩ := Option.map_eq_some_iff.mp taken
    have kept := apply_generation s.session (.setStateIfGeneration g state) (fun h => by cases h)
    exact kept.trans (UInt64.add_zero _).symm
  | terminateIfHeld holder code =>
    obtain ⟨g, -, rfl⟩ := Option.map_eq_some_iff.mp taken
    have kept := apply_generation s.session (.terminateIfGeneration g code) (fun h => by cases h)
    exact kept.trans (UInt64.add_zero _).symm
  | setExitCode code =>
    obtain rfl := Option.some.inj taken
    exact (UInt64.add_zero _).symm
  | write op =>
    obtain rfl := Option.some.inj taken
    cases reset : op.isReset with
    | true =>
      obtain rfl := SessionOp.isReset_iff.mp reset
      rfl
    | false =>
      have other : op ≠ .resetInner := fun same => by
        rw [SessionOp.isReset_iff.mpr same] at reset
        cases reset
      have none : resets [.write op] = 0 := by simp [resets, Action.isReset, reset]
      rw [none]
      exact (apply_generation s.session op other).trans (UInt64.add_zero _).symm

private theorem generation_run (run : Run step anyStep s as t) :
    t.session.generation = s.session.generation + UInt64.ofNat (resets as) := by
  induction run with
  | nil => exact (UInt64.add_zero _).symm
  | @cons s m t a as _ taken _ ih =>
    have more : resets (a :: as) = resets [a] + resets as := by
      rw [resets, resets, resets, ← List.countP_append, List.singleton_append]
    rw [ih, generation_step taken, more, UInt64.ofNat_add, UInt64.add_assoc]

/-- A generation is held until the next read. -/
private theorem held_run (run : Run step anyStep s as t) (kept : .read holder ∉ as) :
    t.held holder = s.held holder := by
  induction run with
  | nil => rfl
  | @cons s m t a as _ taken _ ih =>
    rw [ih fun later => kept (List.mem_cons_of_mem a later)]
    cases a with
    | read other =>
      obtain rfl := Option.some.inj taken
      have differs : holder ≠ other := by
        rintro rfl
        exact kept List.mem_cons_self
      exact Function.update_of_ne differs _ _
    | setStateIfHeld other state | terminateIfHeld other code =>
      obtain ⟨g, -, rfl⟩ := Option.map_eq_some_iff.mp taken
      rfl
    | setExitCode code | write op =>
      obtain rfl := Option.some.inj taken
      rfl

/-- Fewer than `2 ^ 64` bumps lead back to the same epoch only if there are none. -/
private theorem add_ofNat_eq_iff {n : Nat} (few : n < 2 ^ 64) (g : UInt64) :
    g + UInt64.ofNat n = g ↔ n = 0 := by
  constructor
  · intro same
    have value := congrArg UInt64.toNat same
    have small := g.toNat_lt
    rw [UInt64.toNat_add, UInt64.toNat_ofNat_of_lt' few] at value
    omega
  · rintro rfl
    exact UInt64.add_zero g

/-- In every run, a guarded write with the generation that a holder read takes effect exactly
when no reset came since: else it returns false and changes no field of the session. -/
theorem guarded_inert_once_stale {before after : List Action}
    (run : Run step anyStep start (before ++ .read holder :: after) s)
    (kept : .read holder ∉ after) (few : resets after < 2 ^ 64) :
    ∃ g, s.held holder = some g ∧
      (∀ state, s.session.setStateIfGeneration g state =
        if resets after = 0 then ({ s.session with state := state }, true)
        else (s.session, false)) ∧
      (∀ code, s.session.terminateIfGeneration g code =
        if resets after = 0 then
          ({ s.session with exitCode := code <|> s.session.exitCode, state := .terminated }, true)
        else (s.session, false)) := by
  obtain ⟨m, -, rest⟩ := run.split
  cases rest with
  | cons _ taken rest =>
    obtain rfl := Option.some.inj taken
    refine ⟨m.session.generation, ?_, ?_⟩
    · rw [held_run rest kept]
      exact Function.update_self ..
    · have current : s.session.generation = m.session.generation ↔ resets after = 0 := by
        rw [generation_run rest]
        exact add_ofNat_eq_iff few m.session.generation
      constructor
      · intro state
        simp only [SessionManager.setStateIfGeneration, ne_eq, current, ite_not]
      · intro code
        simp only [SessionManager.terminateIfGeneration, ne_eq, current, ite_not]

/-- The pump of a session that was reset cannot terminate the next one. -/
theorem guarded_inert_once_stale_reset :
    ∃ s, Run step anyStep start
        ([] ++ .read 0 :: [.write .resetInner, .write (.setState .running)]) s ∧
      ∃ g, s.held 0 = some g ∧
        s.session.terminateIfGeneration g (some 3) = (s.session, false) := by
  have run : Run step anyStep start
      ([] ++ .read 0 :: [.write .resetInner, .write (.setState .running)]) _ :=
    .cons trivial rfl (.cons trivial rfl (.cons trivial rfl (.nil _)))
  obtain ⟨g, held, -, inert⟩ := guarded_inert_once_stale run (by simp) (by decide)
  exact ⟨_, run, g, held, inert (some 3)⟩

end LldbDebugMcp.Session.Epoch
