/- module: LldbDebugMcp/Backend/Subprocess
   source: crates/lldb-backend/src/subprocess.rs
   digest: The ring of the last bytes of the stderr, against all that was written. -/

import LldbDebugMcp.Library.Retention

set_option autoImplicit false
set_option relaxedAutoImplicit false

namespace LldbDebugMcp.Backend.Subprocess

open Library.Retention

/-- The capacity when none is given. -/
def defaultStderrCap : Nat := 4096

structure StderrBuffer where
  inner : List UInt8
  size : Nat
  deriving DecidableEq, Repr

namespace StderrBuffer

def new (size : Nat) : StderrBuffer := ⟨[], if size = 0 then defaultStderrCap else size⟩

def capacity (b : StderrBuffer) : Nat := b.size

/-- Append the data, keeping the last bytes; none where a subtraction or a range would panic. -/
def write (b : StderrBuffer) (data : List UInt8) : Option (Nat × StderrBuffer) := do
  let n := data.length
  if data.length ≥ b.size then
    let start ← checkedSub data.length b.size
    let tail ← sliceFrom data start
    return (n, { b with inner := tail })
  let buf := b.inner ++ data
  if buf.length > b.size then
    let excess ← checkedSub buf.length b.size
    let rest ← sliceFrom buf excess
    return (n, { b with inner := rest })
  return (n, { b with inner := buf })

/-- Both branches keep the last bytes of what was there and the data. -/
theorem write_eq (b : StderrBuffer) (data : List UInt8) :
    b.write data = some (data.length, { b with inner := (b.inner ++ data).rtake b.size }) := by
  unfold write
  by_cases large : data.length ≥ b.size
  · have tail : data.drop (data.length - b.size) = (b.inner ++ data).rtake b.size := by
      have front : (b.inner ++ data).length - b.size =
          b.inner.length + (data.length - b.size) := by
        rw [List.length_append]
        omega
      rw [List.rtake, front, List.drop_append]
      simp
    simp [large, checkedSub_of_le, sliceFrom_of_le, tail]
  · rw [if_neg large]
    by_cases full : (b.inner ++ data).length > b.size
    · have excess := Nat.le_of_lt full
      simp only [full, if_true, checkedSub_of_le excess, Option.bind_eq_bind, Option.bind_some,
        sliceFrom_of_le (Nat.sub_le ..), List.rtake]
      rfl
    · have whole : (b.inner ++ data).rtake b.size = b.inner ++ data := by
        rw [List.rtake, Nat.sub_eq_zero_of_le (Nat.not_lt.mp full), List.drop_zero]
      rw [if_neg full, whole]
      rfl

/-- The writes one after the other, with the lengths they report. -/
def writeAll : StderrBuffer → List (List UInt8) → Option (List Nat × StderrBuffer)
  | b, [] => some ([], b)
  | b, data :: more => do
    let (n, after) ← b.write data
    let (ns, last) ← writeAll after more
    return (n :: ns, last)

/-- The buffer holds the last bytes of the history. -/
def Holds (history : List UInt8) (b : StderrBuffer) : Prop :=
  Longest (fun _ => 1) b.size history b.inner

theorem Holds.eq {history : List UInt8} {b : StderrBuffer} (holds : Holds history b) :
    b.inner = history.rtake b.size :=
  holds.unique (.rtake history b.size)

theorem Holds.write {history : List UInt8} {b : StderrBuffer} (holds : Holds history b)
    (data : List UInt8) :
    Holds (history ++ data) { b with inner := (b.inner ++ data).rtake b.size } :=
  Longest.append holds (.rtake (b.inner ++ data) b.size)

private theorem writeAll_holds {history : List UInt8} {b : StderrBuffer}
    (holds : Holds history b) (writes : List (List UInt8)) :
    ∃ after, b.writeAll writes = some (writes.map List.length, after) ∧
      after.size = b.size ∧ Holds (history ++ writes.flatten) after := by
  induction writes generalizing history b with
  | nil =>
    refine ⟨b, rfl, rfl, ?_⟩
    rw [List.flatten_nil, List.append_nil]
    exact holds
  | cons data more ih =>
    obtain ⟨after, written, size, held⟩ := ih (holds.write data)
    refine ⟨after, ?_, size, ?_⟩
    · simp [writeAll, write_eq, written]
    · rw [List.flatten_cons, ← List.append_assoc]
      exact held

/-- After any writes, none of which panics and each of which reports its full length, the
buffer holds the last bytes of all that was written, as many as the capacity allows. -/
theorem stderr_ring (size : Nat) (writes : List (List UInt8)) :
    ∃ b, (new size).writeAll writes = some (writes.map List.length, b) ∧
      b.capacity = (if size = 0 then 4096 else size) ∧
      b.inner = writes.flatten.rtake b.capacity := by
  have empty : Holds [] (new size) := Longest.nil
  obtain ⟨b, written, kept, holds⟩ := writeAll_holds empty writes
  exact ⟨b, written, kept, holds.eq⟩

end StderrBuffer

end LldbDebugMcp.Backend.Subprocess
