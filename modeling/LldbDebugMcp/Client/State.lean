/- module: LldbDebugMcp/Client/State
   source: crates/dap-client/src/{client,stop_waiter}.rs
   digest: What the read loop and the calls in flight share: pending map, stop waiter, latch. -/

import Mathlib.Data.Finset.Basic
import LldbDebugMcp.Client.Message
import LldbDebugMcp.Library.Channel

set_option autoImplicit false
set_option relaxedAutoImplicit false

namespace LldbDebugMcp.Client.State

open LldbDebugMcp.Core.Types
open LldbDebugMcp.Client.Message
open LldbDebugMcp.Library.Channel

abbrev PendingResult := Except BackendError DapMessage

/-- The shared state of a client. The channel of a pending request is named by its seq,
so `pending` holds the keys of the map and `replies` what each receiver sees. The latch of
the initialized event is `fired` together with the waiter it wakes. -/
structure Shared where
  seq : Int
  pending : Finset Int
  replies : Int → OneShot PendingResult
  stopWaiter : Slot StopOutcome
  fired : Bool
  initialized : Slot Unit

namespace Shared

def new : Shared where
  seq := 0
  pending := ∅
  replies := fun _ => .empty
  stopWaiter := Slot.new
  fired := false
  initialized := Slot.new

/-- `next_seq` and `register_pending`: the fresh seq is the key of the new entry. -/
def registerPending (s : Shared) : Int × Shared :=
  (s.seq + 1, { s with
    seq := s.seq + 1
    pending := insert (s.seq + 1) s.pending
    replies := Function.update s.replies (s.seq + 1) .empty })

/-- Remove an entry and drop its sender; without effect when it is gone already. -/
def removePending (s : Shared) (seq : Int) : Shared :=
  if seq ∈ s.pending then
    { s with
      pending := s.pending.erase seq
      replies := Function.update s.replies seq .closed }
  else s

/-- Hand a response to the entry of its `request_seq`; false when there is none. -/
def dispatchResponse (s : Shared) (seq : Int) (message : DapMessage) : Shared × Bool :=
  if seq ∈ s.pending then
    ({ s with
      pending := s.pending.erase seq
      replies := Function.update s.replies seq (.sent (.ok message)) }, true)
  else (s, false)

/-- Fail every pending request and clear the map. -/
def cancelAllPending (s : Shared) (err : BackendError) : Shared :=
  { s with
    pending := ∅
    replies := fun q => if q ∈ s.pending then .sent (.error err) else s.replies q }

/-- `StopWaiter::register`. -/
def register (s : Shared) : Nat × Shared :=
  (s.stopWaiter.register.1, { s with stopWaiter := s.stopWaiter.register.2 })

def deliver (s : Shared) (body : StoppedBody) : Shared :=
  { s with stopWaiter := s.stopWaiter.send (.stopped (stopInfoFromEvent body)) }

def deliverExit (s : Shared) (exitCode : Int) : Shared :=
  { s with stopWaiter := s.stopWaiter.send (.exited (some exitCode)) }

/-- `StopWaiter::cancel`. -/
def cancel (s : Shared) : Shared :=
  { s with stopWaiter := s.stopWaiter.send .terminated }

def signalInitialized (s : Shared) : Shared :=
  { s with fired := true, initialized := s.initialized.send () }

/-- The part of `wait_initialized` under the lock: nothing to wait for once the latch has
fired, else the receiver of a waiter that replaces the one before it. -/
def waitInitialized (s : Shared) : Option Nat × Shared :=
  if s.fired then (none, s)
  else (some s.initialized.register.1, { s with initialized := s.initialized.register.2 })

/-- What every client keeps: seqs of the map were assigned, a receiver waits exactly as long as
its entry is in the map, and a latch that has fired holds no waiter. -/
structure Sound (s : Shared) : Prop where
  seq_nonneg : 0 ≤ s.seq
  pending_mem : ∀ q ∈ s.pending, 1 ≤ q ∧ q ≤ s.seq
  waiting : ∀ q ∈ s.pending, s.replies q = .empty
  settled : ∀ q, 1 ≤ q → q ≤ s.seq → q ∉ s.pending → s.replies q ≠ .empty
  stopWaiter : s.stopWaiter.Sound
  initialized : s.initialized.Sound
  latched : s.fired = true → s.initialized.slot = none

theorem sound_new : new.Sound where
  seq_nonneg := Int.le_refl 0
  pending_mem q h := by simp [new] at h
  waiting q h := by simp [new] at h
  settled q h h' _ := by
    simp only [new] at h'
    omega
  stopWaiter := Slot.sound_new
  initialized := Slot.sound_new
  latched h := by cases h

variable {s : Shared}

theorem Sound.registerPending (sound : s.Sound) : s.registerPending.2.Sound where
  seq_nonneg := Int.le_trans sound.seq_nonneg (Int.le_add_one (Int.le_refl _))
  pending_mem q h := by
    have nonneg := sound.seq_nonneg
    simp only [Shared.registerPending] at h ⊢
    rcases Finset.mem_insert.mp h with rfl | h
    · omega
    · have := sound.pending_mem q h
      omega
  waiting q h := by
    simp only [Shared.registerPending] at h ⊢
    rcases Finset.mem_insert.mp h with rfl | old
    · exact Function.update_self _ _ _
    · have bound := sound.pending_mem q old
      rw [Function.update_of_ne (by omega)]
      exact sound.waiting q old
  settled q one le fresh := by
    simp only [Shared.registerPending, Finset.mem_insert, not_or] at le fresh ⊢
    rw [Function.update_of_ne fresh.1]
    exact sound.settled q one (by omega) fresh.2
  stopWaiter := sound.stopWaiter
  initialized := sound.initialized
  latched := sound.latched

/-- Taking an entry out of the map settles its receiver and no other. -/
private theorem sound_take (sound : s.Sound) {seq : Int} {o : OneShot PendingResult}
    (settles : o ≠ .empty) :
    Sound { s with
      pending := s.pending.erase seq
      replies := Function.update s.replies seq o } where
  seq_nonneg := sound.seq_nonneg
  pending_mem q h := sound.pending_mem q (Finset.mem_of_mem_erase h)
  waiting q h := by
    obtain ⟨other, old⟩ := Finset.mem_erase.mp h
    exact (Function.update_of_ne other _ _).trans (sound.waiting q old)
  settled q one le gone := by
    by_cases same : q = seq
    · subst same
      simpa using settles
    · change Function.update s.replies seq o q ≠ .empty
      rw [Function.update_of_ne same]
      exact sound.settled q one le fun h => gone (Finset.mem_erase.mpr ⟨same, h⟩)
  stopWaiter := sound.stopWaiter
  initialized := sound.initialized
  latched := sound.latched

theorem Sound.removePending (sound : s.Sound) (seq : Int) : (s.removePending seq).Sound := by
  unfold Shared.removePending
  split
  · exact sound_take sound fun h => by cases h
  · exact sound

theorem Sound.dispatchResponse (sound : s.Sound) (seq : Int) (message : DapMessage) :
    (s.dispatchResponse seq message).1.Sound := by
  unfold Shared.dispatchResponse
  split
  · exact sound_take sound fun h => by cases h
  · exact sound

theorem Sound.cancelAllPending (sound : s.Sound) (err : BackendError) :
    (s.cancelAllPending err).Sound where
  seq_nonneg := sound.seq_nonneg
  pending_mem q h := by simp [Shared.cancelAllPending] at h
  waiting q h := by simp [Shared.cancelAllPending] at h
  settled q one le _ := by
    simp only [Shared.cancelAllPending]
    split
    · exact fun h => by cases h
    · rename_i fresh
      exact sound.settled q one le fresh
  stopWaiter := sound.stopWaiter
  initialized := sound.initialized
  latched := sound.latched

theorem Sound.register (sound : s.Sound) : s.register.2.Sound :=
  { sound with stopWaiter := sound.stopWaiter.register }

theorem Sound.deliver (sound : s.Sound) (body : StoppedBody) : (s.deliver body).Sound :=
  { sound with stopWaiter := sound.stopWaiter.send _ }

theorem Sound.deliverExit (sound : s.Sound) (exitCode : Int) : (s.deliverExit exitCode).Sound :=
  { sound with stopWaiter := sound.stopWaiter.send _ }

theorem Sound.cancel (sound : s.Sound) : s.cancel.Sound :=
  { sound with stopWaiter := sound.stopWaiter.send _ }

theorem Sound.signalInitialized (sound : s.Sound) : s.signalInitialized.Sound :=
  { sound with
    initialized := sound.initialized.send ()
    latched := fun _ => Slot.send_slot s.initialized () }

theorem Sound.waitInitialized (sound : s.Sound) : s.waitInitialized.2.Sound := by
  unfold Shared.waitInitialized
  split
  · exact sound
  · rename_i unfired
    exact { sound with
      initialized := sound.initialized.register
      latched := fun fired => absurd fired unfired }

end Shared

end LldbDebugMcp.Client.State
