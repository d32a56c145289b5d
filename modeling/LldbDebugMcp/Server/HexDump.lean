/- module: LldbDebugMcp/Server/HexDump
   source: crates/mcp-tools/src/format.rs
   digest: The hex dump of read_memory, and how its lines read back. -/

import LldbDebugMcp.Library.Text

set_option autoImplicit false
set_option relaxedAutoImplicit false

namespace LldbDebugMcp.Server.HexDump

open LldbDebugMcp.Library.Text

/-- The hex column of a position of a row: the byte, or blanks where it is missing. The second
half of the columns stands after one more space. -/
def hexColumn (row : List UInt8) (i : Nat) : List Char :=
  (if i = 8 then [' '] else []) ++
    match row[i]? with
    | some b => hexadecimal 2 b.toNat ++ [' ']
    | none => [' ', ' ', ' ']

/-- How a position shows in the gutter. -/
def gutterChar : Option UInt8 → Char
  | some b => if 0x20 ≤ b ∧ b ≤ 0x7e then Char.ofNat b.toNat else '.'
  | none => ' '

/-- The row of the dump at an address. -/
def dumpRow (row : List UInt8) (addr : UInt64) : List Char :=
  ['0', 'x'] ++ hexadecimal 8 addr.toNat ++ [':', ' '] ++
    (List.range 16).flatMap (hexColumn row) ++ [' ', '|'] ++
    (List.range 16).map (fun i => gutterChar row[i]?) ++ ['|']

/-- The loop over the rows, from an offset on. -/
def dumpFrom (data : List UInt8) (startAddr : UInt64) (offset : Nat) : List Char :=
  if offset < data.length then
    let stop := min (offset + 16) data.length
    dumpRow ((data.take stop).drop offset) (startAddr + UInt64.ofNat offset) ++
      (if offset + 16 < data.length then ['\n'] else []) ++ dumpFrom data startAddr (offset + 16)
  else []
termination_by data.length - offset

def formatHexDump (data : List UInt8) (startAddr : UInt64) : List Char := dumpFrom data startAddr 0

/-! Reading a dump. -/

/-- The lines of a text; an empty one has none. -/
def linesOf (text : List Char) : List (List Char) := if text = [] then [] else text.splitOn '\n'

/-- The number in the label of a line. -/
def readLabel (line : List Char) : Option Nat :=
  (stripPrefix ['0', 'x'] line).bind fun rest => hexNumber (rest.takeWhile (· ≠ ':'))

/-- What stands after the label and its colon and space. -/
def afterLabel (line : List Char) : List Char := (line.dropWhile (· ≠ ':')).drop 2

/-- Where a hex column begins. -/
def column (i : Nat) : Nat := if 8 ≤ i then 3 * i + 1 else 3 * i

/-- The byte that two digits stand for. -/
def readByte (digits : List Char) : Option UInt8 := (hexNumber digits).map UInt8.ofNat

/-- The bytes of the hex columns that are present. -/
def readColumns (line : List Char) : List UInt8 :=
  (List.range 16).filterMap fun i => readByte (((afterLabel line).drop (column i)).take 2)

/-- The gutter of a line. -/
def gutter (line : List Char) : List Char := ((afterLabel line).drop 51).take 16

/-- The places of the separators after the label. -/
def separators : List (Nat × Char) :=
  (List.range 16).map (fun i => (column i + 2, ' ')) ++ [(24, ' '), (49, ' '), (50, '|'), (67, '|')]

/-- The character shows the byte: itself if it is printable, a dot otherwise, and a space where
the byte is missing. -/
def Shows (byte : Option UInt8) (c : Char) : Prop :=
  match byte with
  | some b => if 0x20 ≤ b.toNat ∧ b.toNat ≤ 0x7e then c.toNat = b.toNat else c = '.'
  | none => c = ' '

/-- How the line of a number reads. -/
structure LineReads (data : List UInt8) (startAddr : UInt64) (k : Nat) (line : List Char) :
    Prop where
  label : readLabel line = some ((startAddr.toNat + 16 * k) % 2 ^ 64)
  width : (afterLabel line).length = 68
  separated : ∀ p ∈ separators, (afterLabel line)[p.1]? = some p.2
  gutter_length : (gutter line).length = 16
  gutter_shows : ∀ (i : Nat) (c : Char), (gutter line)[i]? = some c → Shows data[16 * k + i]? c

/-! One line. -/

/-- The two characters of a hex column. -/
private def columnChars (byte : Option UInt8) : Char × Char :=
  match byte with
  | some b => ((b.toNat / 16).digitChar, (b.toNat % 16).digitChar)
  | none => (' ', ' ')

private theorem hexColumn_eq (row : List UInt8) (i : Nat) :
    hexColumn row i = (if i = 8 then [' '] else []) ++
      [(columnChars row[i]?).1, (columnChars row[i]?).2, ' '] := by
  unfold hexColumn
  cases row[i]? with
  | none => rfl
  | some b =>
    change (if i = 8 then [' '] else []) ++ (hexadecimal 2 b.toNat ++ [' ']) = _
    rw [hexadecimal_byte b.toNat_lt]
    rfl

/-- A line after its label, for any characters in the columns and in the gutter. -/
private def frame (chars : Nat → Char × Char) (shown : Nat → Char) : List Char :=
  (List.range 16).flatMap
      (fun i => (if i = 8 then [' '] else []) ++ [(chars i).1, (chars i).2, ' ']) ++
    [' ', '|'] ++ (List.range 16).map shown ++ ['|']

private theorem frame_length (chars : Nat → Char × Char) (shown : Nat → Char) :
    (frame chars shown).length = 68 := rfl

private theorem frame_separators (chars : Nat → Char × Char) (shown : Nat → Char) :
    ∀ p ∈ separators, (frame chars shown)[p.1]? = some p.2 := by
  intro p h
  rcases List.mem_append.mp h with h | h
  · obtain ⟨i, here, rfl⟩ := List.mem_map.mp h
    have small := List.mem_range.mp here
    interval_cases i <;> rfl
  · simp only [List.mem_cons, List.not_mem_nil, or_false] at h
    rcases h with rfl | rfl | rfl | rfl <;> rfl

private theorem frame_column (chars : Nat → Char × Char) (shown : Nat → Char) {i : Nat}
    (small : i < 16) :
    ((frame chars shown).drop (column i)).take 2 = [(chars i).1, (chars i).2] := by
  interval_cases i <;> rfl

private theorem frame_gutter (chars : Nat → Char × Char) (shown : Nat → Char) :
    ((frame chars shown).drop 51).take 16 = (List.range 16).map shown := rfl

private theorem dumpRow_eq (row : List UInt8) (addr : UInt64) :
    dumpRow row addr = ['0', 'x'] ++ hexadecimal 8 addr.toNat ++ [':', ' '] ++
      frame (fun i => columnChars row[i]?) (fun i => gutterChar row[i]?) := by
  have columns : hexColumn row = fun i => (if i = 8 then [' '] else []) ++
      [(columnChars row[i]?).1, (columnChars row[i]?).2, ' '] := funext (hexColumn_eq row)
  simp only [dumpRow, frame, columns, List.append_assoc]

private theorem not_colon {width n : Nat} {c : Char} (h : c ∈ hexadecimal width n) :
    decide (c ≠ ':') = true := by
  rw [decide_eq_true_eq]
  rintro rfl
  have digit := hexValue_of_mem_hexadecimal h
  cases digit

private theorem afterLabel_dumpRow (row : List UInt8) (addr : UInt64) :
    afterLabel (dumpRow row addr) =
      frame (fun i => columnChars row[i]?) (fun i => gutterChar row[i]?) := by
  rw [afterLabel, dumpRow_eq, List.append_assoc, List.dropWhile_append_of_pos]
  · rfl
  · intro c h
    rcases List.mem_append.mp h with h | h
    · rcases List.mem_pair.mp h with rfl | rfl <;> rfl
    · exact not_colon h

private theorem readLabel_dumpRow (row : List UInt8) (addr : UInt64) :
    readLabel (dumpRow row addr) = some addr.toNat := by
  have front : stripPrefix ['0', 'x'] (dumpRow row addr) =
      some (hexadecimal 8 addr.toNat ++ ([':', ' '] ++
        frame (fun i => columnChars row[i]?) (fun i => gutterChar row[i]?))) := by
    rw [dumpRow_eq]
    simp [stripPrefix]
  rw [readLabel, front, Option.bind_some, List.takeWhile_append_of_pos (fun c => not_colon)]
  have rest : List.takeWhile (fun c => decide (c ≠ ':')) ([':', ' '] ++
      frame (fun i => columnChars row[i]?) (fun i => gutterChar row[i]?)) = [] := rfl
  rw [rest, List.append_nil, hexNumber_hexadecimal]

private theorem readByte_columnChars (byte : Option UInt8) :
    readByte [(columnChars byte).1, (columnChars byte).2] = byte := by
  cases byte with
  | none => rfl
  | some b =>
    have digits := hexadecimal_byte b.toNat_lt
    rw [readByte, columnChars, ← digits, hexNumber_hexadecimal]
    simp

private theorem filterMap_getElem? (row : List UInt8) {n : Nat} (short : row.length ≤ n) :
    (List.range n).filterMap (fun i => row[i]?) = row := by
  induction row generalizing n with
  | nil => simp
  | cons b row ih =>
    cases n with
    | zero => cases short
    | succ n =>
      rw [List.range_succ_eq_map, List.filterMap_cons, List.filterMap_map]
      exact congrArg (b :: ·) (ih (Nat.le_of_succ_le_succ short))

private theorem readColumns_dumpRow {row : List UInt8} (short : row.length ≤ 16) (addr : UInt64) :
    readColumns (dumpRow row addr) = row := by
  have columns : (List.range 16).filterMap (fun i =>
      readByte (((afterLabel (dumpRow row addr)).drop (column i)).take 2)) =
      (List.range 16).filterMap (fun i => row[i]?) := by
    refine List.filterMap_congr fun i h => ?_
    rw [afterLabel_dumpRow, frame_column _ _ (List.mem_range.mp h), readByte_columnChars]
  rw [readColumns, columns, filterMap_getElem? row short]

private theorem shows_gutterChar (byte : Option UInt8) : Shows byte (gutterChar byte) := by
  cases byte with
  | none => rfl
  | some b =>
    have small := b.toNat_lt
    have valid : b.toNat.isValidChar := .inl (by omega)
    have printable : (0x20 ≤ b ∧ b ≤ 0x7e) ↔ (0x20 ≤ b.toNat ∧ b.toNat ≤ 0x7e) :=
      and_congr UInt8.le_iff_toNat_le UInt8.le_iff_toNat_le
    unfold Shows gutterChar
    by_cases shown : 0x20 ≤ b.toNat ∧ b.toNat ≤ 0x7e
    · simp only [printable, shown, and_self, if_true]
      rw [Char.ofNat, dif_pos valid]
      rfl
    · simp only [printable, shown, if_false]

/-- No byte breaks its line. -/
private theorem lineFeed_not_mem (row : List UInt8) (addr : UInt64) : '\n' ∉ dumpRow row addr := by
  have shown : ∀ byte : Option UInt8, gutterChar byte ≠ '\n' := by
    intro byte same
    have shows_byte := shows_gutterChar byte
    rw [same] at shows_byte
    cases byte with
    | none => cases shows_byte
    | some b =>
      simp only [Shows] at shows_byte
      split at shows_byte
      · rename_i printable
        change 10 = b.toNat at shows_byte
        omega
      · cases shows_byte
  have digits : ∀ width n, '\n' ∉ hexadecimal width n := by
    intro width n h
    have digit := hexValue_of_mem_hexadecimal h
    cases digit
  have columns : ∀ i, '\n' ∉ hexColumn row i := by
    intro i h
    unfold hexColumn at h
    rcases List.mem_append.mp h with h | h
    · split at h
      · simp at h
      · cases h
    · split at h
      · rcases List.mem_append.mp h with h | h
        · exact digits _ _ h
        · simp at h
      · simp at h
  simp [dumpRow, digits, columns, shown]

/-! The rows. -/

private def rowAt (data : List UInt8) (k : Nat) : List UInt8 := (data.drop (16 * k)).take 16

private def lineAt (data : List UInt8) (startAddr : UInt64) (k : Nat) : List Char :=
  dumpRow (rowAt data k) (startAddr + UInt64.ofNat (16 * k))

private theorem rowAt_eq (data : List UInt8) (k : Nat) :
    (data.take (min (16 * k + 16) data.length)).drop (16 * k) = rowAt data k := by
  rw [← List.take_take, List.take_length, List.drop_take]
  simp [rowAt]

/-- The rest of the loop writes the rows that are left, with line feeds between them. -/
private theorem dumpFrom_eq (data : List UInt8) (startAddr : UInt64) {k left : Nat}
    (count : k + left = (data.length + 15) / 16) :
    dumpFrom data startAddr (16 * k) =
      ['\n'].intercalate ((List.range' k left).map (lineAt data startAddr)) := by
  induction left generalizing k with
  | zero =>
    rw [dumpFrom, if_neg (by omega)]
    rfl
  | succ left ih =>
    rw [dumpFrom, if_pos (by omega)]
    simp only [rowAt_eq]
    change lineAt data startAddr k ++ _ ++ dumpFrom data startAddr (16 * (k + 1)) = _
    rw [ih (by omega), List.range'_succ, List.map_cons]
    cases left with
    | zero =>
      rw [if_neg (by omega)]
      simp
    | succ left =>
      rw [if_pos (by omega), List.range'_succ, List.map_cons, List.intercalate_cons_cons]

private theorem intercalate_getLast? {lines : List (List Char)} (some_line : lines ≠ [])
    (ends : ∀ line ∈ lines, line.getLast? = some '|') :
    (['\n'].intercalate lines).getLast? = some '|' := by
  induction lines with
  | nil => exact absurd rfl some_line
  | cons line lines ih =>
    by_cases last : lines = []
    · subst last
      rw [List.intercalate_singleton]
      exact ends line List.mem_cons_self
    · rw [List.intercalate_cons_of_ne_nil last, List.getLast?_append,
        ih last fun other h => ends other (List.mem_cons_of_mem line h)]
      rfl

private theorem dumpRow_getLast? (row : List UInt8) (addr : UInt64) :
    (dumpRow row addr).getLast? = some '|' := by
  rw [dumpRow, List.getLast?_append]
  rfl

private theorem formatHexDump_eq (data : List UInt8) (startAddr : UInt64) :
    formatHexDump data startAddr = ['\n'].intercalate
      ((List.range ((data.length + 15) / 16)).map (lineAt data startAddr)) := by
  rw [formatHexDump, List.range_eq_range']
  exact dumpFrom_eq data startAddr (Nat.zero_add _)

private theorem formatHexDump_getLast? {data : List UInt8} (nonempty : data ≠ [])
    (startAddr : UInt64) : (formatHexDump data startAddr).getLast? = some '|' := by
  have some_byte := List.length_pos_of_ne_nil nonempty
  rw [formatHexDump_eq]
  refine intercalate_getLast? ?_ ?_
  · rw [Ne, List.map_eq_nil_iff, List.range_eq_nil]
    omega
  · intro line h
    obtain ⟨k, -, rfl⟩ := List.mem_map.mp h
    exact dumpRow_getLast? ..

private theorem linesOf_formatHexDump (data : List UInt8) (startAddr : UInt64) :
    linesOf (formatHexDump data startAddr) =
      (List.range ((data.length + 15) / 16)).map (lineAt data startAddr) := by
  by_cases empty : data = []
  · subst empty
    rw [formatHexDump, dumpFrom]
    rfl
  · have text : formatHexDump data startAddr ≠ [] := by
      intro none
      have last := formatHexDump_getLast? empty startAddr
      rw [none] at last
      cases last
    rw [linesOf, if_neg text, formatHexDump_eq, List.splitOn_intercalate]
    · intro line h
      obtain ⟨k, -, rfl⟩ := List.mem_map.mp h
      exact lineFeed_not_mem _ _
    · have some_byte := List.length_pos_of_ne_nil empty
      rw [Ne, List.map_eq_nil_iff, List.range_eq_nil]
      omega

private theorem flatMap_rowAt (data : List UInt8) (m : Nat) :
    (List.range m).flatMap (rowAt data) = data.take (16 * m) := by
  induction m with
  | zero => rfl
  | succ m ih =>
    rw [List.range_succ, List.flatMap_append, ih, List.flatMap_singleton, Nat.mul_succ,
      List.take_add]
    rfl

private theorem readColumns_lineAt (data : List UInt8) (startAddr : UInt64) (k : Nat) :
    readColumns (lineAt data startAddr k) = rowAt data k := by
  have short : (rowAt data k).length ≤ 16 := List.length_take_le ..
  rw [lineAt, readColumns_dumpRow short]

private theorem lineAt_reads (data : List UInt8) (startAddr : UInt64) (k : Nat) :
    LineReads data startAddr k (lineAt data startAddr k) where
  label := by
    rw [lineAt, readLabel_dumpRow, UInt64.toNat_add]
    simp
  width := by rw [lineAt, afterLabel_dumpRow, frame_length]
  separated := by
    rw [lineAt, afterLabel_dumpRow]
    exact frame_separators _ _
  gutter_length := by
    rw [lineAt, gutter, afterLabel_dumpRow, frame_gutter, List.length_map, List.length_range]
  gutter_shows := by
    intro i c here
    rw [lineAt, gutter, afterLabel_dumpRow, frame_gutter, List.getElem?_map] at here
    obtain ⟨j, at_i, rfl⟩ := Option.map_eq_some_iff.mp here
    obtain ⟨small, rfl⟩ := List.getElem?_eq_some_iff.mp at_i
    rw [List.length_range] at small
    have byte : (rowAt data k)[i]? = data[16 * k + i]? := by
      rw [rowAt, List.getElem?_take_of_lt small, List.getElem?_drop]
    rw [List.getElem_range, ← byte]
    exact shows_gutterChar _

/-- A dump reads back: it is one line for every sixteen bytes begun, separated by single line
feeds with none at the end; the hex columns of all lines are the data; and each line has its
address as label, the same width and separators, and a gutter that shows its bytes. -/
theorem hex_dump_reads_back (data : List UInt8) (startAddr : UInt64) :
    (linesOf (formatHexDump data startAddr)).length = (data.length + 15) / 16 ∧
      formatHexDump data startAddr =
        ['\n'].intercalate (linesOf (formatHexDump data startAddr)) ∧
      (formatHexDump data startAddr).getLast? ≠ some '\n' ∧
      (linesOf (formatHexDump data startAddr)).flatMap readColumns = data ∧
      ∀ (k : Nat) (line : List Char), (linesOf (formatHexDump data startAddr))[k]? = some line →
        LineReads data startAddr k line := by
  rw [linesOf_formatHexDump]
  refine ⟨by rw [List.length_map, List.length_range], formatHexDump_eq data startAddr, ?_, ?_, ?_⟩
  · by_cases empty : data = []
    · subst empty
      rw [formatHexDump, dumpFrom]
      exact fun h => by cases h
    · rw [formatHexDump_getLast? empty]
      decide
  · rw [List.flatMap_map]
    simp only [readColumns_lineAt, flatMap_rowAt]
    exact List.take_of_length_le (by omega)
  · intro k line here
    rw [List.getElem?_map] at here
    obtain ⟨j, at_k, rfl⟩ := Option.map_eq_some_iff.mp here
    obtain ⟨small, rfl⟩ := List.getElem?_eq_some_iff.mp at_k
    rw [List.getElem_range]
    exact lineAt_reads ..

/-! What the lines of a dump tell, one by one. -/

/-- The text of the label of a line. -/
def labelOf (line : List Char) : List Char := line.takeWhile (· ≠ ':')

/-- Every line reads as the line of its number. -/
theorem reads_of_mem_linesOf {data : List UInt8} {startAddr : UInt64} {k : Nat} {line : List Char}
    (here : (linesOf (formatHexDump data startAddr))[k]? = some line) :
    LineReads data startAddr k line := by
  rw [linesOf_formatHexDump, List.getElem?_map] at here
  obtain ⟨j, at_k, rfl⟩ := Option.map_eq_some_iff.mp here
  obtain ⟨small, rfl⟩ := List.getElem?_eq_some_iff.mp at_k
  rw [List.getElem_range]
  exact lineAt_reads ..

theorem length_linesOf (data : List UInt8) (startAddr : UInt64) :
    (linesOf (formatHexDump data startAddr)).length = (data.length + 15) / 16 := by
  rw [linesOf_formatHexDump, List.length_map, List.length_range]

theorem columns_of_linesOf (data : List UInt8) (startAddr : UInt64) :
    (linesOf (formatHexDump data startAddr)).flatMap readColumns = data := by
  rw [linesOf_formatHexDump, List.flatMap_map]
  simp only [readColumns_lineAt, flatMap_rowAt]
  exact List.take_of_length_le (by omega)

/-- The label of a line is the address of its first byte, in at least eight digits. -/
theorem labelOf_linesOf {data : List UInt8} {startAddr : UInt64} {k : Nat} {line : List Char}
    (here : (linesOf (formatHexDump data startAddr))[k]? = some line) :
    labelOf line =
      ['0', 'x'] ++ hexadecimal 8 (startAddr + UInt64.ofNat (16 * k)).toNat := by
  rw [linesOf_formatHexDump, List.getElem?_map] at here
  obtain ⟨j, at_k, rfl⟩ := Option.map_eq_some_iff.mp here
  obtain ⟨small, rfl⟩ := List.getElem?_eq_some_iff.mp at_k
  rw [List.getElem_range, labelOf, lineAt, dumpRow_eq, List.append_assoc,
    List.takeWhile_append_of_pos]
  · exact List.append_nil _
  · intro c h
    rcases List.mem_append.mp h with h | h
    · rcases List.mem_pair.mp h with rfl | rfl <;> rfl
    · exact not_colon h

private theorem rowAt_drop (data : List UInt8) (k j : Nat) :
    rowAt (data.drop (16 * k)) j = rowAt data (k + j) := by
  rw [rowAt, rowAt, List.drop_drop, Nat.mul_add]

/-- The dump of what follows some rows is what follows their lines. -/
theorem linesOf_drop (data : List UInt8) (startAddr : UInt64) (k : Nat) :
    linesOf (formatHexDump (data.drop (16 * k)) (startAddr + UInt64.ofNat (16 * k))) =
      (linesOf (formatHexDump data startAddr)).drop k := by
  refine List.ext_getElem? fun j => ?_
  rw [linesOf_formatHexDump, linesOf_formatHexDump, List.getElem?_drop, List.getElem?_map,
    List.getElem?_map]
  have rows : ((data.drop (16 * k)).length + 15) / 16 = (data.length + 15) / 16 - k := by
    rw [List.length_drop]
    omega
  have line : lineAt (data.drop (16 * k)) (startAddr + UInt64.ofNat (16 * k)) j =
      lineAt data startAddr (k + j) := by
    rw [lineAt, lineAt, rowAt_drop, Nat.mul_add, UInt64.ofNat_add, UInt64.add_assoc]
  by_cases short : j < (data.length + 15) / 16 - k
  · rw [List.getElem?_range (by omega), List.getElem?_range (by omega), Option.map_some,
      Option.map_some, line]
  · rw [List.getElem?_eq_none (by rw [List.length_range]; omega),
      List.getElem?_eq_none (by rw [List.length_range]; omega), Option.map_none, Option.map_none]

end LldbDebugMcp.Server.HexDump
