/- module: LldbDebugMcp/Session/Output
   source: crates/mcp-session/src/output_buffer.rs
   digest: The capped buffer of captured program output, and what it holds in any run. -/

import Mathlib.Data.String.Basic
import LldbDebugMcp.Library.Retention

set_option autoImplicit false
set_option relaxedAutoImplicit false

namespace LldbDebugMcp.Session.Output

open Library.Retention

/-- The cap on the bytes that are buffered, 1 MiB. -/
def maxSize : Nat := 1048576

structure OutputEntry where
  category : String
  text : String
  deriving DecidableEq, Repr

/-- Bytes of the category and of the text. -/
def OutputEntry.size (e : OutputEntry) : Nat := e.category.utf8ByteSize + e.text.utf8ByteSize

structure OutputBuffer where
  entries : List OutputEntry
  size : Nat
  truncated : Bool
  deriving DecidableEq, Repr

namespace OutputBuffer

def new : OutputBuffer := ⟨[], 0, false⟩

/-- Drop the oldest entries while the total exceeds the cap. -/
def evict : List OutputEntry → Nat → Bool → OutputBuffer
  | [], size, truncated => ⟨[], size, truncated⟩
  | e :: rest, size, truncated =>
    if maxSize < size then evict rest (size - e.size) true else ⟨e :: rest, size, truncated⟩

/-- Append one entry, then evict. -/
def append (b : OutputBuffer) (category text : String) : OutputBuffer :=
  let e : OutputEntry := ⟨category, text⟩
  evict (b.entries ++ [e]) (b.size + e.size) b.truncated

/-- Return the buffered entries, after the marker when some were evicted, and clear. -/
def drain (b : OutputBuffer) : List OutputEntry × OutputBuffer :=
  if b.entries.isEmpty ∧ b.truncated = false then ([], b)
  else
    let marker : List OutputEntry :=
      if b.truncated then [⟨"console", "[output truncated]"⟩] else []
    (marker ++ b.entries, ⟨[], 0, false⟩)

/-- Only the oldest entries go. -/
theorem evict_suffix (entries : List OutputEntry) (size : Nat) (truncated : Bool) :
    (evict entries size truncated).entries <:+ entries := by
  induction entries generalizing size truncated with
  | nil => exact List.suffix_refl []
  | cons e rest ih =>
    simp only [evict]
    split
    · exact (ih _ _).trans (List.suffix_cons e rest)
    · exact List.suffix_refl _

theorem append_suffix (b : OutputBuffer) (category text : String) :
    (b.append category text).entries <:+ b.entries ++ [⟨category, text⟩] :=
  evict_suffix ..

/-- Under the cap nothing goes. -/
theorem append_of_fits {b : OutputBuffer} {category text : String}
    (fits : b.size + OutputEntry.size ⟨category, text⟩ ≤ maxSize) :
    b.append category text = ⟨b.entries ++ [⟨category, text⟩],
      b.size + OutputEntry.size ⟨category, text⟩, b.truncated⟩ := by
  have under := Nat.not_lt.mpr fits
  unfold append
  cases b.entries with
  | nil => simp only [List.nil_append, evict, if_neg under]
  | cons e rest => simp only [List.cons_append, evict, if_neg under]

@[simp] theorem drain_entries (b : OutputBuffer) : b.drain.2.entries = [] := by
  unfold drain
  split
  · rename_i empty
    exact List.isEmpty_iff.mp empty.1
  · rfl

@[simp] theorem drain_truncated (b : OutputBuffer) : b.drain.2.truncated = false := by
  unfold drain
  split
  · rename_i empty
    exact empty.2
  · rfl

/-- What a drain returns: the marker, when entries were evicted, and the buffered entries. -/
theorem drain_fst (b : OutputBuffer) : b.drain.1 =
    (if b.truncated then [⟨"console", "[output truncated]"⟩] else []) ++ b.entries := by
  unfold drain
  split
  · rename_i empty
    rw [empty.2, List.isEmpty_iff.mp empty.1]
    rfl
  · rfl

/-- The eviction with the subtraction of the source, which must not go below zero. -/
def evictChecked : List OutputEntry → Nat → Bool → Option OutputBuffer
  | [], size, truncated => some ⟨[], size, truncated⟩
  | e :: rest, size, truncated =>
    if maxSize < size then
      (checkedSub size e.size).bind fun size => evictChecked rest size true
    else some ⟨e :: rest, size, truncated⟩

def appendChecked (b : OutputBuffer) (category text : String) : Option OutputBuffer :=
  let e : OutputEntry := ⟨category, text⟩
  evictChecked (b.entries ++ [e]) (b.size + e.size) b.truncated

/-- The calls on the buffer. -/
inductive Call where
  | append (category text : String)
  | drain
  deriving DecidableEq, Repr

/-- The buffer after a call, none where the call would panic. -/
def apply (b : OutputBuffer) : Call → Option OutputBuffer
  | .append category text => b.appendChecked category text
  | .drain => some b.drain.2

/-- The entries appended since the last drain. -/
def appended (history : List OutputEntry) : Call → List OutputEntry
  | .append category text => history ++ [⟨category, text⟩]
  | .drain => []

/-- What the buffer holds of the entries appended since the last drain. -/
structure Holds (history : List OutputEntry) (b : OutputBuffer) : Prop where
  longest : Longest OutputEntry.size maxSize history b.entries
  size : b.size = total OutputEntry.size b.entries
  marked : b.truncated = true ↔ b.entries ≠ history

/-- The eviction loop: the size it counts down is the total of what is left, so it stops at
the longest end within the cap, and it marks the buffer when it removed an entry. -/
private theorem evictChecked_spec (entries : List OutputEntry) (truncated : Bool) :
    ∃ b, evictChecked entries (total OutputEntry.size entries) truncated = some b ∧
      evict entries (total OutputEntry.size entries) truncated = b ∧
      Longest OutputEntry.size maxSize entries b.entries ∧
      b.size = total OutputEntry.size b.entries ∧
      (b.truncated = true ↔ truncated = true ∨ b.entries ≠ entries) := by
  induction entries generalizing truncated with
  | nil => exact ⟨_, rfl, rfl, .nil, rfl, by simp⟩
  | cons e rest ih =>
    simp only [evictChecked, evict]
    split
    · rename_i full
      obtain ⟨b, checked, same, longest, size, marked⟩ := ih true
      rw [total_cons] at full
      have left : total OutputEntry.size (e :: rest) - e.size =
          total OutputEntry.size rest := by
        rw [total_cons, Nat.add_sub_cancel_left]
      have removed : b.entries ≠ e :: rest := by
        intro whole
        have short := longest.suffix.length_le
        rw [whole, List.length_cons] at short
        omega
      refine ⟨b, ?_, ?_, .cons_of_not_fits full longest, size, ?_⟩
      · rw [checkedSub_of_le (by simp), Option.bind_some, left, checked]
      · rw [left, same]
      · rw [marked]
        simp [removed]
    · rename_i fits
      exact ⟨_, rfl, rfl, .whole (Nat.not_lt.mp fits), rfl, by simp⟩

/-- The subtraction of the source is the one of the model, in every buffer a run reaches. -/
theorem Holds.appendChecked {history : List OutputEntry} {b : OutputBuffer}
    (holds : Holds history b) (category text : String) :
    b.appendChecked category text = some (b.append category text) := by
  have size : b.size + OutputEntry.size ⟨category, text⟩ =
      total OutputEntry.size (b.entries ++ [⟨category, text⟩]) := by
    simp [holds.size]
  unfold OutputBuffer.appendChecked OutputBuffer.append
  obtain ⟨after, checked, same, -⟩ :=
    evictChecked_spec (b.entries ++ [⟨category, text⟩]) b.truncated
  simp only [size, checked, same]

theorem holds_new : Holds [] new := ⟨.nil, rfl, by simp [new]⟩

theorem Holds.append {history : List OutputEntry} {b : OutputBuffer} (holds : Holds history b)
    (category text : String) :
    Holds (history ++ [⟨category, text⟩]) (b.append category text) := by
  have size : b.size + OutputEntry.size ⟨category, text⟩ =
      total OutputEntry.size (b.entries ++ [⟨category, text⟩]) := by
    simp [holds.size]
  obtain ⟨after, -, same, longest, sum, marked⟩ :=
    evictChecked_spec (b.entries ++ [⟨category, text⟩]) b.truncated
  have stands : b.append category text = after := by
    simp only [OutputBuffer.append, size, same]
  rw [stands]
  refine ⟨holds.longest.append longest, sum, marked.trans ?_⟩
  rw [holds.marked]
  -- an entry is missing from the history when it went before or goes now
  constructor
  · rintro (gone | gone) whole
    · have short := longest.suffix.length_le
      rw [whole, List.length_append, List.length_append] at short
      exact gone (holds.longest.suffix.eq_of_length_le (by omega))
    · have short := holds.longest.suffix.length_le
      refine gone (longest.suffix.eq_of_length_le ?_)
      rw [whole, List.length_append, List.length_append]
      omega
  · intro missing
    by_cases gone : b.entries = history
    · rw [← gone] at missing
      exact .inr missing
    · exact .inl gone

theorem Holds.drain {history : List OutputEntry} {b : OutputBuffer} (holds : Holds history b) :
    b.drain.2 = new := by
  have size : b.drain.2.size = 0 := by
    unfold OutputBuffer.drain
    split
    · rename_i empty
      rw [holds.size, List.isEmpty_iff.mp empty.1, total_nil]
    · rfl
  have parts : b.drain.2 = ⟨b.drain.2.entries, b.drain.2.size, b.drain.2.truncated⟩ := rfl
  rw [parts, size, drain_entries, drain_truncated]
  rfl

private theorem apply_holds {history : List OutputEntry} {b : OutputBuffer}
    (holds : Holds history b) (call : Call) :
    ∃ after, b.apply call = some after ∧ Holds (appended history call) after := by
  cases call with
  | append category text =>
    exact ⟨_, holds.appendChecked category text, holds.append category text⟩
  | drain =>
    refine ⟨b.drain.2, rfl, ?_⟩
    rw [holds.drain]
    exact holds_new

private theorem calls_hold {history : List OutputEntry} {b : OutputBuffer}
    (holds : Holds history b) (calls : List Call) :
    ∃ after, calls.foldlM apply b = some after ∧ Holds (calls.foldl appended history) after := by
  induction calls generalizing history b with
  | nil => exact ⟨b, rfl, holds⟩
  | cons call calls ih =>
    obtain ⟨next, applied, held⟩ := apply_holds holds call
    rw [List.foldlM_cons, applied]
    exact ih held

/-- After any appends and drains, none of which panics, the buffer holds the longest end
within the cap of what was appended since the last drain, with its size; a drain returns it,
after the marker if an entry was evicted, and leaves the buffer as new. -/
theorem buffer_law (calls : List Call) :
    ∃ b evicted, calls.foldlM apply new = some b ∧
      calls.foldl appended [] = evicted ++ b.entries ∧
      Longest OutputEntry.size maxSize (calls.foldl appended []) b.entries ∧
      b.size = total OutputEntry.size b.entries ∧
      b.drain.1 =
        (if evicted.isEmpty then [] else [⟨"console", "[output truncated]"⟩]) ++ b.entries ∧
      b.drain.2 = new := by
  obtain ⟨b, reached, holds⟩ := calls_hold holds_new calls
  obtain ⟨evicted, split⟩ := holds.longest.suffix
  refine ⟨b, evicted, reached, split.symm, holds.longest, holds.size, ?_, holds.drain⟩
  rw [drain_fst]
  have marked : b.truncated = !evicted.isEmpty := by
    rw [Bool.eq_iff_iff, holds.marked, ← split, Ne, List.self_eq_append_left]
    simp
  rw [marked]
  cases evicted <;> rfl

end OutputBuffer

end LldbDebugMcp.Session.Output
