/- module: LldbDebugMcp/Library/Text
   source: none (general)
   digest: Bytes of a text, its lines, and the decimal and hexadecimal forms of a number. -/

import Mathlib.Data.List.DropRight
import Mathlib.Data.Nat.Digits.Lemmas
import Mathlib.Tactic.IntervalCases

set_option autoImplicit false
set_option relaxedAutoImplicit false

namespace LldbDebugMcp.Library.Text

/-- The UTF-8 bytes of a text. -/
def encode (text : List Char) : List UInt8 := text.flatMap String.utf8EncodeChar

/-- The text of UTF-8 bytes, if they are valid. -/
def decode (bytes : List UInt8) : Option (List Char) :=
  (String.fromUTF8? bytes.toByteArray).map (·.toList)

/-- Characters that take one byte each. -/
def Ascii (text : List Char) : Prop := ∀ c ∈ text, c.toNat < 128

instance (text : List Char) : Decidable (Ascii text) :=
  List.decidableBAll (fun c : Char => c.toNat < 128) text

theorem encode_append (a b : List Char) : encode (a ++ b) = encode a ++ encode b :=
  List.flatMap_append ..

theorem decode_encode (text : List Char) : decode (encode text) = some text := by
  have bytes : (encode text).toByteArray = text.utf8Encode := rfl
  have valid : (encode text).toByteArray.IsValidUTF8 := .intro text bytes
  unfold decode String.fromUTF8?
  rw [dif_pos valid]
  have same : String.fromUTF8 (encode text).toByteArray valid = String.ofList text := by
    rw [← String.toByteArray_inj]
    rfl
  simp [same]

private theorem utf8EncodeChar_ascii {c : Char} (ascii : c.toNat < 128) :
    String.utf8EncodeChar c = [c.val.toNat.toUInt8] := by
  have small : c.val.toNat ≤ 127 := Nat.le_of_lt_succ ascii
  simp only [String.utf8EncodeChar, small, if_true]

theorem encode_cons_ascii {c : Char} {text : List Char} (ascii : c.toNat < 128) :
    encode (c :: text) = c.val.toNat.toUInt8 :: encode text := by
  simp [encode, utf8EncodeChar_ascii ascii]

theorem length_encode_ascii {text : List Char} (ascii : Ascii text) :
    (encode text).length = text.length := by
  induction text with
  | nil => rfl
  | cons c text ih =>
    rw [encode_cons_ascii (ascii c List.mem_cons_self), List.length_cons, List.length_cons,
      ih fun d h => ascii d (List.mem_cons_of_mem c h)]

/-- A cut between the bytes of single-byte characters is a cut between characters. -/
theorem take_encode_ascii {text : List Char} (ascii : Ascii text) (k : Nat) :
    (encode text).take k = encode (text.take k) := by
  induction text generalizing k with
  | nil => simp [encode]
  | cons c text ih =>
    have rest : Ascii text := fun d h => ascii d (List.mem_cons_of_mem c h)
    have first := ascii c List.mem_cons_self
    cases k with
    | zero => rfl
    | succ k =>
      rw [encode_cons_ascii first, List.take_succ_cons, List.take_succ_cons,
        encode_cons_ascii first, ih rest]

theorem Ascii.take {text : List Char} (ascii : Ascii text) (k : Nat) : Ascii (text.take k) :=
  fun c h => ascii c (List.mem_of_mem_take h)

theorem Ascii.append {a b : List Char} (first : Ascii a) (second : Ascii b) : Ascii (a ++ b) := by
  intro c h
  rcases List.mem_append.mp h with h | h
  · exact first c h
  · exact second c h

/-- The byte of the line feed stands for no other single-byte character. -/
theorem lineFeed_mem_encode {text : List Char} (ascii : Ascii text) (none : '\n' ∉ text) :
    (10 : UInt8) ∉ encode text := by
  intro h
  obtain ⟨c, here, byte⟩ := List.mem_flatMap.mp h
  have small := ascii c here
  rw [utf8EncodeChar_ascii small, List.mem_singleton] at byte
  have code : c.toNat = 10 := by
    have value : 10 = c.toNat % 256 := by simpa using congrArg UInt8.toNat byte
    omega
  have : c = '\n' := Char.ext (UInt32.toNat_inj.mp code)
  exact none (this ▸ here)

/-- The bytes up to and with the first line feed, and the rest. -/
def takeLine : List UInt8 → List UInt8 × List UInt8
  | [] => ([], [])
  | b :: rest => if b = 10 then ([b], rest) else (b :: (takeLine rest).1, (takeLine rest).2)

theorem takeLine_append (bytes : List UInt8) :
    (takeLine bytes).1 ++ (takeLine bytes).2 = bytes := by
  induction bytes with
  | nil => rfl
  | cons b rest ih =>
    unfold takeLine
    split
    · rfl
    · exact congrArg (b :: ·) ih

/-- A line is not empty unless the input is. -/
theorem takeLine_rest_lt {bytes : List UInt8} (h : bytes ≠ []) :
    (takeLine bytes).2.length < bytes.length := by
  cases bytes with
  | nil => exact absurd rfl h
  | cons b rest =>
    have parts := congrArg List.length (takeLine_append rest)
    rw [List.length_append] at parts
    unfold takeLine
    split
    · exact Nat.lt_succ_self _
    · simp only [List.length_cons]
      omega

theorem takeLine_full {line rest : List UInt8} (h : (10 : UInt8) ∉ line) :
    takeLine (line ++ 10 :: rest) = (line ++ [10], rest) := by
  induction line with
  | nil => rfl
  | cons b line ih =>
    have other : b ≠ 10 := fun same => h (same ▸ List.mem_cons_self)
    rw [List.cons_append, takeLine, if_neg other, ih fun m => h (List.mem_cons_of_mem b m)]
    rfl

/-- The last line may lack its line feed. -/
theorem takeLine_open {line : List UInt8} (h : (10 : UInt8) ∉ line) :
    takeLine line = (line, []) := by
  induction line with
  | nil => rfl
  | cons b line ih =>
    have other : b ≠ 10 := fun same => h (same ▸ List.mem_cons_self)
    rw [takeLine, if_neg other, ih fun m => h (List.mem_cons_of_mem b m)]

/-- The White_Space property of Unicode. -/
def isWhitespace (c : Char) : Bool :=
  let n := c.toNat
  (9 ≤ n && n ≤ 13) || n = 0x20 || n = 0x85 || n = 0xA0 || n = 0x1680 ||
    (0x2000 ≤ n && n ≤ 0x200A) || n = 0x2028 || n = 0x2029 || n = 0x202F || n = 0x205F ||
    n = 0x3000

/-- `str::trim`. -/
def trim (text : List Char) : List Char := (text.dropWhile isWhitespace).rdropWhile isWhitespace

/-- `str::strip_prefix`. -/
def stripPrefix (before text : List Char) : Option (List Char) :=
  if before.isPrefixOf text then some (text.drop before.length) else none

/-- `str::parse` at an unsigned type of the width: an optional plus sign, and decimal digits of
a number in range. -/
def parseUnsigned (width : Nat) (text : List Char) : Option Nat :=
  let digits := match text with
    | '+' :: rest => rest
    | _ => text
  if digits ≠ [] ∧ digits.all Char.isDigit = true ∧ Nat.ofDigitChars 10 digits 0 < 2 ^ width then
    some (Nat.ofDigitChars 10 digits 0)
  else none

/-- The decimal form of a number. -/
def decimal (n : Nat) : List Char := Nat.toDigits 10 n

theorem decimal_isDigit {n : Nat} {c : Char} (h : c ∈ decimal n) : c.isDigit = true :=
  Nat.isDigit_of_mem_toDigits (by decide) (by decide) h

theorem parseUnsigned_decimal {width n : Nat} (h : n < 2 ^ width) :
    parseUnsigned width (decimal n) = some n := by
  have value : Nat.ofDigitChars 10 (decimal n) 0 = n := Nat.ofDigitChars_ten_toDigits
  have digits : (decimal n).all Char.isDigit = true :=
    List.all_eq_true.mpr fun c h => decimal_isDigit h
  have plain : (match decimal n with
      | '+' :: rest => rest
      | _ => decimal n) = decimal n := by
    split
    · rename_i rest same
      have bad := decimal_isDigit (same ▸ List.mem_cons_self : '+' ∈ decimal n)
      cases bad
    · rfl
  unfold parseUnsigned
  simp only [plain, value]
  rw [if_pos ⟨Nat.toDigits_ne_nil, digits, h⟩]

private theorem isDigit_range {c : Char} (h : c.isDigit = true) : 48 ≤ c.toNat ∧ c.toNat ≤ 57 := by
  simp only [Char.isDigit, ge_iff_le, Bool.and_eq_true, decide_eq_true_eq] at h
  exact h

theorem decimal_ascii (n : Nat) : Ascii (decimal n) := fun c h => by
  have := isDigit_range (decimal_isDigit h)
  omega

/-- A decimal form holds no white space and no line feed. -/
theorem decimal_not_whitespace {n : Nat} {c : Char} (h : c ∈ decimal n) :
    isWhitespace c = false := by
  have range := isDigit_range (decimal_isDigit h)
  simp only [isWhitespace, Bool.or_eq_false_iff, Bool.and_eq_false_iff, decide_eq_false_iff_not]
  omega

theorem trim_decimal (n : Nat) : trim (' ' :: decimal n) = decimal n := by
  have front : (' ' :: decimal n).dropWhile isWhitespace = decimal n := by
    rw [List.dropWhile_cons_of_pos (by decide)]
    cases digits : decimal n with
    | nil => rfl
    | cons c rest =>
      have first := decimal_not_whitespace (n := n) (c := c) (digits ▸ List.mem_cons_self)
      rw [List.dropWhile_cons_of_neg (by simp [first])]
  unfold trim
  rw [front, List.rdropWhile_eq_self_iff]
  intro nonempty white
  have last := decimal_not_whitespace (List.getLast_mem nonempty)
  rw [last] at white
  cases white

/-- The hexadecimal form of a number, in lower case, with zeros in front up to the width. -/
def hexadecimal (width n : Nat) : List Char := (Nat.toDigits 16 n).leftpad width '0'

/-- The value of a hexadecimal digit in lower case. -/
def hexValue (c : Char) : Option Nat :=
  if '0' ≤ c ∧ c ≤ '9' then some (c.toNat - 48)
  else if 'a' ≤ c ∧ c ≤ 'f' then some (c.toNat - 87)
  else none

/-- The number that hexadecimal digits stand for. -/
def hexNumber (text : List Char) : Option Nat :=
  text.foldlM (fun n c => (hexValue c).map (16 * n + ·)) 0

theorem hexValue_digitChar {n : Nat} (small : n < 16) : hexValue n.digitChar = some n := by
  interval_cases n <;> rfl

private theorem hexNumber_append (a b : List Char) :
    hexNumber (a ++ b) =
      (hexNumber a).bind (b.foldlM (fun n c => (hexValue c).map (16 * n + ·))) :=
  List.foldlM_append

private theorem hexNumber_zeros (k : Nat) (text : List Char) :
    hexNumber (List.replicate k '0' ++ text) = hexNumber text := by
  induction k with
  | zero => rfl
  | succ k ih => exact ih

private theorem hexNumber_toDigits (n : Nat) : hexNumber (Nat.toDigits 16 n) = some n := by
  induction n using Nat.strong_induction_on with
  | _ n ih =>
    by_cases small : n < 16
    · rw [Nat.toDigits_of_lt_base small]
      simp [hexNumber, hexValue_digitChar small]
    · have large := Nat.not_lt.mp small
      have digit : n % 16 < 16 := Nat.mod_lt n (by decide)
      rw [Nat.toDigits_of_base_le (by decide) large, hexNumber_append,
        ih (n / 16) (Nat.div_lt_self (by omega) (by decide))]
      simp only [Option.bind_some, List.foldlM_cons, List.foldlM_nil, hexValue_digitChar digit,
        Option.map_some, Option.bind_eq_bind]
      exact congrArg some (Nat.div_add_mod n 16)

theorem hexNumber_hexadecimal (width n : Nat) : hexNumber (hexadecimal width n) = some n := by
  rw [hexadecimal, List.leftpad, hexNumber_zeros, hexNumber_toDigits]

/-- The form of a byte is its high half and its low half. -/
theorem hexadecimal_byte {n : Nat} (small : n < 256) :
    hexadecimal 2 n = [(n / 16).digitChar, (n % 16).digitChar] := by
  by_cases one : n < 16
  · rw [hexadecimal, Nat.toDigits_of_lt_base one, Nat.div_eq_of_lt one, Nat.mod_eq_of_lt one]
    rfl
  · have high : n / 16 < 16 := by omega
    rw [hexadecimal, Nat.toDigits_of_base_le (by decide) (Nat.not_lt.mp one),
      Nat.toDigits_of_lt_base high]
    rfl

/-- A hexadecimal form holds digits only. -/
theorem hexValue_of_mem_hexadecimal {width n : Nat} {c : Char} (h : c ∈ hexadecimal width n) :
    (hexValue c).isSome := by
  rcases List.mem_append.mp h with zero | digit
  · rw [List.eq_of_mem_replicate zero]
    rfl
  · clear h
    induction n using Nat.strong_induction_on with
    | _ n ih =>
      by_cases small : n < 16
      · rw [Nat.toDigits_of_lt_base small, List.mem_singleton] at digit
        rw [digit, hexValue_digitChar small]
        rfl
      · have last : n % 16 < 16 := Nat.mod_lt n (by decide)
        rw [Nat.toDigits_of_base_le (by decide) (Nat.not_lt.mp small), List.mem_append,
          List.mem_singleton] at digit
        rcases digit with digit | digit
        · exact ih (n / 16) (Nat.div_lt_self (by omega) (by decide)) digit
        · rw [digit, hexValue_digitChar last]
          rfl

end LldbDebugMcp.Library.Text
