/- module: LldbDebugMcp/Library/Base64
   source: none (general)
   digest: Base64 with the standard alphabet and canonical padding. -/

import Mathlib.Data.List.Basic

set_option autoImplicit false
set_option relaxedAutoImplicit false

namespace LldbDebugMcp.Library.Base64

/-- The character of six bits. -/
def digit (n : Nat) : Char :=
  if n < 26 then Char.ofNat (65 + n)
  else if n < 52 then Char.ofNat (97 + (n - 26))
  else if n < 62 then Char.ofNat (48 + (n - 52))
  else if n = 62 then '+' else '/'

/-- The six bits of a character. -/
def value (c : Char) : Option Nat :=
  if 65 ≤ c.toNat ∧ c.toNat ≤ 90 then some (c.toNat - 65)
  else if 97 ≤ c.toNat ∧ c.toNat ≤ 122 then some (c.toNat - 97 + 26)
  else if 48 ≤ c.toNat ∧ c.toNat ≤ 57 then some (c.toNat - 48 + 52)
  else if c = '+' then some 62
  else if c = '/' then some 63
  else none

def encode : List UInt8 → List Char
  | a :: b :: c :: rest =>
    digit (a.toNat / 4) :: digit (a.toNat % 4 * 16 + b.toNat / 16) ::
      digit (b.toNat % 16 * 4 + c.toNat / 64) :: digit (c.toNat % 64) :: encode rest
  | [a, b] =>
    [digit (a.toNat / 4), digit (a.toNat % 4 * 16 + b.toNat / 16), digit (b.toNat % 16 * 4), '=']
  | [a] => [digit (a.toNat / 4), digit (a.toNat % 4 * 16), '=', '=']
  | [] => []

/-- The last quantum, when it is padded. The bits that the padding stands for must be zero. -/
def decodeLast (w x y : Char) : Option (List UInt8) :=
  (value w).bind fun w => (value x).bind fun x =>
    if y = '=' then
      if x % 16 = 0 then some [UInt8.ofNat (w * 4 + x / 16)] else none
    else (value y).bind fun y =>
      if y % 4 = 0 then some [UInt8.ofNat (w * 4 + x / 16), UInt8.ofNat (x % 16 * 16 + y / 4)]
      else none

def decode : List Char → Option (List UInt8)
  | [] => some []
  | w :: x :: y :: z :: rest =>
    if rest = [] ∧ z = '=' then decodeLast w x y
    else (value w).bind fun w => (value x).bind fun x => (value y).bind fun y =>
      (value z).bind fun z => (decode rest).map fun tail =>
        UInt8.ofNat (w * 4 + x / 16) :: UInt8.ofNat (x % 16 * 16 + y / 4) ::
          UInt8.ofNat (y % 4 * 64 + z) :: tail
  | _ => none

theorem value_digit {n : Nat} (small : n < 64) : value (digit n) = some n := by
  revert small
  revert n
  decide +kernel

theorem digit_value {c : Char} {n : Nat} (h : value c = some n) : digit n = c ∧ n < 64 := by
  unfold value at h
  have back : Char.ofNat c.toNat = c := Char.ofNat_toNat c
  split at h
  · rename_i upper
    obtain rfl := Option.some.inj h
    have place : c.toNat - 65 < 26 := by omega
    refine ⟨?_, by omega⟩
    rw [digit, if_pos place, Nat.add_sub_cancel' upper.1, back]
  split at h
  · rename_i lower
    obtain rfl := Option.some.inj h
    refine ⟨?_, by omega⟩
    rw [digit, if_neg (by omega), if_pos (by omega), Nat.add_sub_cancel,
      Nat.add_sub_cancel' lower.1, back]
  split at h
  · rename_i number
    obtain rfl := Option.some.inj h
    refine ⟨?_, by omega⟩
    rw [digit, if_neg (by omega), if_neg (by omega), if_pos (by omega), Nat.add_sub_cancel,
      Nat.add_sub_cancel' number.1, back]
  split at h
  · rename_i plus
    obtain rfl := Option.some.inj h
    exact ⟨plus.symm, by omega⟩
  split at h
  · rename_i slash
    obtain rfl := Option.some.inj h
    exact ⟨slash.symm, by omega⟩
  · cases h

theorem digit_ne_pad {n : Nat} (small : n < 64) : digit n ≠ '=' := by
  intro pad
  have known := value_digit small
  rw [pad] at known
  cases known

/-- A byte put together from its bits. -/
private theorem byte_eq {a : UInt8} {n : Nat} (eq : n = a.toNat) : UInt8.ofNat n = a := by
  rw [eq, UInt8.ofNat_toNat]

theorem decode_encode (bytes : List UInt8) : decode (encode bytes) = some bytes := by
  induction bytes using encode.induct with
  | case1 a b c rest ih =>
    have ha := a.toNat_lt
    have hb := b.toNat_lt
    have hc := c.toNat_lt
    have unpadded : ¬ (encode rest = [] ∧ digit (c.toNat % 64) = '=') :=
      fun h => digit_ne_pad (by omega) h.2
    rw [encode, decode, if_neg unpadded, value_digit (by omega), value_digit (by omega),
      value_digit (by omega), value_digit (by omega), ih]
    simp only [Option.bind_some, Option.map_some]
    rw [byte_eq (a := a) (by omega), byte_eq (a := b) (by omega), byte_eq (a := c) (by omega)]
  | case2 a b =>
    have ha := a.toNat_lt
    have hb := b.toNat_lt
    rw [encode, decode, if_pos ⟨rfl, rfl⟩, decodeLast, value_digit (by omega),
      value_digit (by omega)]
    simp only [Option.bind_some]
    rw [if_neg (digit_ne_pad (by omega)), value_digit (by omega)]
    simp only [Option.bind_some]
    rw [if_pos (by omega), byte_eq (a := a) (by omega), byte_eq (a := b) (by omega)]
  | case3 a =>
    have ha := a.toNat_lt
    rw [encode, decode, if_pos ⟨rfl, rfl⟩, decodeLast, value_digit (by omega),
      value_digit (by omega)]
    simp only [Option.bind_some]
    rw [if_pos trivial, if_pos (by omega), byte_eq (a := a) (by omega)]
  | case4 => rfl

private theorem ofNat_toNat {n : Nat} (small : n < 256) : (UInt8.ofNat n).toNat = n := by
  rw [UInt8.toNat_ofNat', Nat.mod_eq_of_lt small]

/-- The last quantum decodes to the bytes whose encoding it is. -/
private theorem encode_decodeLast {w x y : Char} {bytes : List UInt8}
    (h : decodeLast w x y = some bytes) : encode bytes = [w, x, y, '='] := by
  obtain ⟨m, hw, rest⟩ := Option.bind_eq_some_iff.mp h
  obtain ⟨n, hx, last⟩ := Option.bind_eq_some_iff.mp rest
  obtain ⟨w_eq, hm⟩ := digit_value hw
  obtain ⟨x_eq, hn⟩ := digit_value hx
  by_cases pad : y = '='
  · rw [if_pos pad] at last
    by_cases zero : n % 16 = 0
    · rw [if_pos zero] at last
      obtain rfl := Option.some.inj last
      have first : (m * 4 + n / 16) / 4 = m := by omega
      have second : (m * 4 + n / 16) % 4 * 16 = n := by omega
      rw [encode, ofNat_toNat (by omega), first, second, w_eq, x_eq, pad]
    · rw [if_neg zero] at last
      cases last
  · rw [if_neg pad] at last
    obtain ⟨k, hy, last⟩ := Option.bind_eq_some_iff.mp last
    obtain ⟨y_eq, hk⟩ := digit_value hy
    by_cases zero : k % 4 = 0
    · rw [if_pos zero] at last
      obtain rfl := Option.some.inj last
      have first : (m * 4 + n / 16) / 4 = m := by omega
      have second : (m * 4 + n / 16) % 4 * 16 + (n % 16 * 16 + k / 4) / 16 = n := by omega
      have third : (n % 16 * 16 + k / 4) % 16 * 4 = k := by omega
      rw [encode, ofNat_toNat (by omega), ofNat_toNat (by omega), first, second, third, w_eq,
        x_eq, y_eq]
    · rw [if_neg zero] at last
      cases last

/-- What decodes is the encoding of what it decodes to. -/
theorem encode_of_decode {text : List Char} {bytes : List UInt8} (h : decode text = some bytes) :
    encode bytes = text := by
  induction text using decode.induct generalizing bytes with
  | case1 =>
    obtain rfl := Option.some.inj h
    rfl
  | case2 w x y z rest padded =>
    rw [decode, if_pos padded] at h
    rw [padded.1, padded.2]
    exact encode_decodeLast h
  | case3 w x y z rest unpadded ih =>
    rw [decode, if_neg unpadded] at h
    obtain ⟨m, hw, h₁⟩ := Option.bind_eq_some_iff.mp h
    obtain ⟨n, hx, h₂⟩ := Option.bind_eq_some_iff.mp h₁
    obtain ⟨k, hy, h₃⟩ := Option.bind_eq_some_iff.mp h₂
    obtain ⟨l, hz, h₄⟩ := Option.bind_eq_some_iff.mp h₃
    obtain ⟨tail, decoded, eq⟩ := Option.map_eq_some_iff.mp h₄
    obtain ⟨w_eq, hm⟩ := digit_value hw
    obtain ⟨x_eq, hn⟩ := digit_value hx
    obtain ⟨y_eq, hk⟩ := digit_value hy
    obtain ⟨z_eq, hl⟩ := digit_value hz
    subst eq
    have first : (m * 4 + n / 16) / 4 = m := by omega
    have second : (m * 4 + n / 16) % 4 * 16 + (n % 16 * 16 + k / 4) / 16 = n := by omega
    have third : (n % 16 * 16 + k / 4) % 16 * 4 + (k % 4 * 64 + l) / 64 = k := by omega
    have fourth : (k % 4 * 64 + l) % 64 = l := by omega
    rw [encode, ofNat_toNat (by omega), ofNat_toNat (by omega), ofNat_toNat (by omega), first,
      second, third, fourth, w_eq, x_eq, y_eq, z_eq, ih decoded]
  | case4 text short =>
    rw [decode] at h
    · cases h
    all_goals assumption

/-- The texts that decode are the encodings. -/
theorem decode_eq_some {text : List Char} {bytes : List UInt8} :
    decode text = some bytes ↔ text = encode bytes := by
  constructor
  · exact fun h => (encode_of_decode h).symm
  · rintro rfl
    exact decode_encode bytes

end LldbDebugMcp.Library.Base64
