/- module: LldbDebugMcp/Client/Wire
   source: crates/dap-client/src/{wire,error}.rs
   digest: Content-Length framing, the decoding of a frame, and what survives a cut stream. -/

import LldbDebugMcp.Client.Message
import LldbDebugMcp.Library.Text

set_option autoImplicit false
set_option relaxedAutoImplicit false

namespace LldbDebugMcp.Client.Wire

open LldbDebugMcp.Client.Message
open LldbDebugMcp.Library.Text

abbrev Bytes := List UInt8

inductive IoError where
  | unexpectedEof
  | invalidData
  deriving DecidableEq, Repr

/-- A failure of the wire layer. -/
inductive WireError where
  | eof
  | io (e : IoError)
  | missingContentLength
  | invalidContentLength (value : String)
  | json
  deriving DecidableEq, Repr

/-- The longest body that is honored, 64 MiB. -/
def maxContentLength : Nat := 64 * 1024 * 1024

def contentLength : List Char := "Content-Length:".toList

def lineEnd : List Char := ['\r', '\n']

/-- The field of a header, without its line end. -/
def field (length : Nat) : List Char := contentLength ++ ' ' :: decimal length

/-- The header of a body of the given length. -/
def header (length : Nat) : List Char := field length ++ lineEnd ++ lineEnd

/-- The bytes that `write_message` writes for a serialized body. -/
def frame (body : Bytes) : Bytes := encode (header body.length) ++ body

/-- `trim_end_matches(['\r', '\n'])`. -/
def trimLineEnd (line : List Char) : List Char := line.rdropWhile fun c => c = '\r' || c = '\n'

/-- What a header line says: nothing more follows, a field that is ignored, or a length. -/
inductive HeaderLine where
  | blank
  | ignored
  | length (n : Nat)
  | invalid (value : String)
  deriving DecidableEq

def parseLine (line : List Char) : HeaderLine :=
  let trimmed := trimLineEnd line
  if trimmed = [] then .blank
  else match stripPrefix contentLength trimmed with
    | none => .ignored
    | some value =>
      match parseUnsigned 64 (trim value) with
      | none => .invalid (String.ofList (trim value))
      | some n =>
        if maxContentLength < n then .invalid (String.ofList (trim value)) else .length n

/-- Header lines up to the blank one, which give the length of the body. -/
def readHeader (known : Option Nat) (firstLine : Bool) (bytes : Bytes) :
    Except WireError (Nat × Bytes) :=
  if _h : bytes = [] then
    .error (if firstLine then .eof else .io .unexpectedEof)
  else
    match decode (takeLine bytes).1 with
    | none => .error (.io .invalidData)
    | some line =>
      match parseLine line with
      | .blank =>
        match known with
        | some n => .ok (n, (takeLine bytes).2)
        | none => .error .missingContentLength
      | .ignored => readHeader known false (takeLine bytes).2
      | .length n => readHeader (some n) false (takeLine bytes).2
      | .invalid value => .error (.invalidContentLength value)
termination_by bytes.length
decreasing_by
  · exact takeLine_rest_lt _h
  · exact takeLine_rest_lt _h

/-- Exactly so many bytes, or the stream ends before. -/
def readExactBody (length : Nat) (bytes : Bytes) : Except WireError (Bytes × Bytes) :=
  if length ≤ bytes.length then .ok (bytes.take length, bytes.drop length)
  else .error (.io .unexpectedEof)

/-- The framing of `read_message`: the body of one frame, and the bytes after it. -/
def readFrame (bytes : Bytes) : Except WireError (Bytes × Bytes) := do
  let (length, rest) ← readHeader none true bytes
  readExactBody length rest

variable {known : Option Nat} {firstLine : Bool} {bytes rest body : Bytes} {n : Nat} {e : WireError}

theorem readHeader_nil : readHeader known firstLine [] =
    .error (if firstLine then .eof else .io .unexpectedEof) := by
  rw [readHeader.eq_def, dif_pos rfl]

/-- One line of a header. -/
theorem readHeader_line {line : List Char} (nonempty : bytes ≠ [])
    (text : decode (takeLine bytes).1 = some line) :
    readHeader known firstLine bytes = match parseLine line with
      | .blank =>
        match known with
        | some n => .ok (n, (takeLine bytes).2)
        | none => .error .missingContentLength
      | .ignored => readHeader known false (takeLine bytes).2
      | .length n => readHeader (some n) false (takeLine bytes).2
      | .invalid value => .error (.invalidContentLength value) := by
  rw [readHeader.eq_def, dif_neg nonempty, text]

/-- A header that is read takes some bytes. -/
theorem readHeader_rest (read : readHeader known firstLine bytes = .ok (n, rest)) :
    rest.length < bytes.length := by
  fun_induction readHeader known firstLine bytes with
  | case1 => cases read
  | case2 => cases read
  | case3 first bytes nonempty =>
    cases read
    exact takeLine_rest_lt nonempty
  | case4 => cases read
  | case5 known first bytes nonempty line valid ignored ih =>
    exact Nat.lt_trans (ih read) (takeLine_rest_lt nonempty)
  | case6 known first bytes nonempty line valid length given ih =>
    exact Nat.lt_trans (ih read) (takeLine_rest_lt nonempty)
  | case7 => cases read

/-- The clean end of the stream is seen only before the first byte of a header. -/
theorem readHeader_eof : readHeader known firstLine bytes = .error .eof ↔
    bytes = [] ∧ firstLine = true := by
  fun_induction readHeader known firstLine bytes with
  | case1 known first => cases first <;> simp
  | case5 known first bytes nonempty line valid ignored ih => simp [ih, nonempty]
  | case6 known first bytes nonempty line valid length given ih => simp [ih, nonempty]
  | _ => simp_all

theorem readFrame_rest (read : readFrame bytes = .ok (body, rest)) :
    rest.length < bytes.length := by
  unfold readFrame at read
  cases header : readHeader none true bytes with
  | error e =>
    rw [header] at read
    cases read
  | ok result =>
    obtain ⟨n, after⟩ := result
    rw [header] at read
    have shorter := readHeader_rest header
    change readExactBody n after = _ at read
    unfold readExactBody at read
    split at read <;> cases read
    rw [List.length_drop]
    omega

theorem readFrame_eof : readFrame bytes = .error .eof ↔ bytes = [] := by
  unfold readFrame
  cases header : readHeader none true bytes with
  | error e =>
    have eof := @readHeader_eof none true bytes
    rw [header] at eof
    simpa [bind, Except.bind] using eof
  | ok result =>
    obtain ⟨n, after⟩ := result
    have shorter := readHeader_rest header
    have nonempty : bytes ≠ [] := by
      rintro rfl
      simp at shorter
    change readExactBody n after = _ ↔ _
    unfold readExactBody
    split <;> simp [nonempty]

/-- The framing steps of successive reads, up to the first error. -/
def readFrames (bytes : Bytes) : List Bytes × WireError :=
  match _h : readFrame bytes with
  | .error e => ([], e)
  | .ok (body, rest) => (body :: (readFrames rest).1, (readFrames rest).2)
termination_by bytes.length
decreasing_by exact readFrame_rest _h

theorem readFrames_error (failed : readFrame bytes = .error e) : readFrames bytes = ([], e) := by
  rw [readFrames]
  split
  · rename_i e' eq
    cases failed.symm.trans eq
    rfl
  · rename_i eq
    cases failed.symm.trans eq

theorem readFrames_ok (read : readFrame bytes = .ok (body, rest)) :
    readFrames bytes = (body :: (readFrames rest).1, (readFrames rest).2) := by
  rw [readFrames]
  split
  · rename_i eq
    cases read.symm.trans eq
  · rename_i eq
    cases read.symm.trans eq
    rfl

/-! Headers as they are written. -/

private theorem field_ascii (n : Nat) : Ascii (field n) := by
  have name : Ascii contentLength := by decide
  refine name.append fun c h => ?_
  rcases List.mem_cons.mp h with rfl | h
  · decide
  · exact decimal_ascii n c h

private theorem lineEnd_ascii : Ascii lineEnd := by decide

private theorem decimal_ne {n : Nat} {c : Char} (h : c ∈ decimal n) : c ≠ '\r' ∧ c ≠ '\n' := by
  have digit := decimal_isDigit h
  constructor
  · rintro rfl
    cases digit
  · rintro rfl
    cases digit

private theorem field_ne {n : Nat} {c : Char} (h : c ∈ field n) : c ≠ '\r' ∧ c ≠ '\n' := by
  have all : contentLength.all (fun c => c != '\r' && c != '\n') = true := by decide
  have name : ∀ c ∈ contentLength, c ≠ '\r' ∧ c ≠ '\n' := fun c h => by
    simpa using List.all_eq_true.mp all c h
  rcases List.mem_append.mp h with h | h
  · exact name c h
  · rcases List.mem_cons.mp h with rfl | h
    · decide
    · exact decimal_ne h

private theorem trimLineEnd_field (n : Nat) : trimLineEnd (field n ++ lineEnd) = field n := by
  have split : field n ++ lineEnd = (field n ++ ['\r']) ++ ['\n'] := by simp [lineEnd]
  unfold trimLineEnd
  rw [split, List.rdropWhile_concat_pos _ _ _ (by decide),
    List.rdropWhile_concat_pos _ _ _ (by decide), List.rdropWhile_eq_self_iff]
  intro nonempty white
  have last := field_ne (List.getLast_mem nonempty)
  simp [last.1, last.2] at white

private theorem stripPrefix_append (before rest : List Char) :
    stripPrefix before (before ++ rest) = some rest := by
  simp [stripPrefix, List.isPrefixOf_iff_prefix]

private theorem parseLine_field (fits : n ≤ maxContentLength) :
    parseLine (field n ++ lineEnd) = .length n := by
  have range : n < 2 ^ 64 := Nat.lt_of_le_of_lt fits (by decide)
  have nonempty : field n ≠ [] := by simp [field]
  unfold parseLine
  simp only [trimLineEnd_field, nonempty, if_false]
  rw [field, stripPrefix_append]
  simp only [trim_decimal, parseUnsigned_decimal range]
  rw [if_neg (Nat.not_lt.mpr fits)]

/-- A line that begins with a letter is not blank. -/
private theorem parseLine_not_blank {c : Char} {line : List Char} (letter : c ≠ '\r' ∧ c ≠ '\n') :
    parseLine (c :: line) ≠ .blank := by
  have nonempty : trimLineEnd (c :: line) ≠ [] := by
    intro empty
    have white := List.rdropWhile_eq_nil_iff.mp empty c List.mem_cons_self
    simp [letter.1, letter.2] at white
  unfold parseLine
  simp only [nonempty, if_false]
  split
  · exact fun h => by cases h
  · split
    · exact fun h => by cases h
    · split <;> exact fun h => by cases h

private theorem encode_line (line : List Char) (tail : Bytes) :
    encode (line ++ ['\n']) ++ tail = encode line ++ 10 :: tail := by
  rw [encode_append, List.append_assoc]
  rfl

/-- A line that ends with a line feed is taken whole. -/
private theorem takeLine_encode {line : List Char} (ascii : Ascii line) (within : '\n' ∉ line)
    (tail : Bytes) :
    takeLine (encode (line ++ ['\n']) ++ tail) = (encode (line ++ ['\n']), tail) := by
  rw [encode_line, takeLine_full (lineFeed_mem_encode ascii within), encode_append]
  rfl

private theorem encode_line_ne_nil (line : List Char) (tail : Bytes) :
    encode (line ++ ['\n']) ++ tail ≠ [] := by
  rw [encode_line]
  simp

private theorem decode_takeLine {line : List Char} (ascii : Ascii line) (within : '\n' ∉ line)
    (tail : Bytes) :
    decode (takeLine (encode (line ++ ['\n']) ++ tail)).1 = some (line ++ ['\n']) := by
  rw [takeLine_encode ascii within, decode_encode]

private theorem readHeader_length {line : List Char} (ascii : Ascii line) (within : '\n' ∉ line)
    (parsed : parseLine (line ++ ['\n']) = .length n) (tail : Bytes) :
    readHeader known firstLine (encode (line ++ ['\n']) ++ tail) =
      readHeader (some n) false tail := by
  rw [readHeader_line (encode_line_ne_nil line tail) (decode_takeLine ascii within tail), parsed,
    takeLine_encode ascii within]

private theorem readHeader_blank {line : List Char} (ascii : Ascii line) (within : '\n' ∉ line)
    (parsed : parseLine (line ++ ['\n']) = .blank) (tail : Bytes) :
    readHeader (some n) firstLine (encode (line ++ ['\n']) ++ tail) = .ok (n, tail) := by
  rw [readHeader_line (encode_line_ne_nil line tail) (decode_takeLine ascii within tail), parsed,
    takeLine_encode ascii within]

private theorem readHeader_field (fits : n ≤ maxContentLength) (tail : Bytes) :
    readHeader known firstLine (encode (field n ++ lineEnd) ++ tail) =
      readHeader (some n) false tail := by
  have split : field n ++ lineEnd = (field n ++ ['\r']) ++ ['\n'] := by simp [lineEnd]
  have ascii : Ascii (field n ++ ['\r']) := (field_ascii n).append (by decide)
  have within : '\n' ∉ field n ++ ['\r'] := by
    intro h
    rcases List.mem_append.mp h with h | h
    · exact (field_ne h).2 rfl
    · revert h
      decide
  rw [split]
  exact readHeader_length ascii within (split ▸ parseLine_field fits) tail

private theorem readHeader_lineEnd (tail : Bytes) :
    readHeader (some n) firstLine (encode lineEnd ++ tail) = .ok (n, tail) :=
  @readHeader_blank firstLine n ['\r'] (by decide) (by decide) (by decide) tail

private theorem frame_eq (body : Bytes) :
    frame body = encode (field body.length ++ lineEnd) ++ (encode lineEnd ++ body) := by
  simp only [frame, header, encode_append, List.append_assoc]

/-- A whole frame is read back, and nothing after it is touched. -/
theorem readFrame_frame (fits : body.length ≤ maxContentLength) (tail : Bytes) :
    readFrame (frame body ++ tail) = .ok (body, tail) := by
  have header : readHeader none true (frame body ++ tail) = .ok (body.length, body ++ tail) := by
    rw [frame_eq, List.append_assoc, List.append_assoc, readHeader_field fits, readHeader_lineEnd]
  unfold readFrame
  rw [header]
  simp [bind, Except.bind, readExactBody]

/-- A stream that ends within the field line holds no header. -/
private theorem readHeader_cut_field {k : Nat} (begun : k ≠ 0)
    (short : k < (field n ++ lineEnd).length) :
    ∃ e, readHeader none true (encode ((field n ++ lineEnd).take k)) = .error e := by
  obtain ⟨k, rfl⟩ := Nat.exists_eq_succ_of_ne_zero begun
  have split : field n ++ lineEnd = (field n ++ ['\r']) ++ ['\n'] := by simp [lineEnd]
  have within : '\n' ∉ (field n ++ lineEnd).take (k + 1) := by
    rw [split] at short ⊢
    rw [List.take_append_of_le_length (by simpa using short)]
    intro h
    rcases List.mem_append.mp (List.mem_of_mem_take h) with h | h
    · exact (field_ne h).2 rfl
    · revert h
      decide
  have ascii : Ascii ((field n ++ lineEnd).take (k + 1)) :=
    ((field_ascii n).append lineEnd_ascii).take _
  -- The line begins with the first letter of the name, so it is not blank.
  obtain ⟨line, text⟩ : ∃ line, (field n ++ lineEnd).take (k + 1) = 'C' :: line :=
    ⟨_, List.take_succ_cons ..⟩
  rw [text] at within ascii ⊢
  have nonempty : encode ('C' :: line) ≠ [] := by
    rw [encode_cons_ascii (by decide)]
    exact List.cons_ne_nil _ _
  have taken := takeLine_open (lineFeed_mem_encode ascii within)
  rw [@readHeader_line none true _ ('C' :: line) nonempty (by rw [taken, decode_encode]), taken]
  cases parsed : parseLine ('C' :: line) with
  | blank => exact absurd parsed (parseLine_not_blank (by decide))
  | ignored => exact ⟨_, readHeader_nil⟩
  | length n => exact ⟨_, readHeader_nil⟩
  | invalid value => exact ⟨_, rfl⟩

/-- A stream that ends within the blank line, or within the body. -/
private theorem readFrame_cut_rest {k : Nat} (nonempty : body ≠ [])
    (fits : body.length ≤ maxContentLength) (cut : k < (encode lineEnd ++ body).length) :
    ∃ e, readFrame (encode (field body.length ++ lineEnd) ++ (encode lineEnd ++ body).take k) =
      .error e := by
  have positive : 0 < body.length := List.length_pos_iff.mpr nonempty
  unfold readFrame
  rw [readHeader_field fits]
  match k with
  | 0 =>
    rw [List.take_zero, readHeader_nil]
    exact ⟨_, rfl⟩
  | 1 =>
    have bytes : (encode lineEnd ++ body).take 1 = [13] := rfl
    have last : readHeader (some body.length) false [13] = .ok (body.length, []) :=
      @readHeader_line _ _ _ ['\r'] (by decide) (decode_encode ['\r'])
    rw [bytes, last]
    refine ⟨.io .unexpectedEof, ?_⟩
    change readExactBody body.length [] = _
    rw [readExactBody, if_neg (by simpa using nonempty)]
  | k + 2 =>
    have bytes : (encode lineEnd ++ body).take (k + 2) = encode lineEnd ++ body.take k := rfl
    have short : (body.take k).length < body.length := by
      have length : (encode lineEnd ++ body).length = body.length + 2 := by
        rw [List.length_append, Nat.add_comm]
        rfl
      rw [List.length_take]
      omega
    rw [bytes, readHeader_lineEnd]
    refine ⟨.io .unexpectedEof, ?_⟩
    change readExactBody body.length (body.take k) = _
    rw [readExactBody, if_neg (Nat.not_le.mpr short)]

/-- A cut frame is not read. -/
private theorem readFrame_cut {k : Nat} (nonempty : body ≠ [])
    (fits : body.length ≤ maxContentLength) (cut : k < (frame body).length) :
    ∃ e, readFrame ((frame body).take k) = .error e := by
  have ascii : Ascii (field body.length ++ lineEnd) := (field_ascii _).append lineEnd_ascii
  have length := length_encode_ascii ascii
  rw [frame_eq] at cut ⊢
  by_cases begun : k = 0
  · subst begun
    exact ⟨.eof, readFrame_eof.mpr rfl⟩
  · by_cases within : k < (field body.length ++ lineEnd).length
    · rw [List.take_append_of_le_length (by omega), take_encode_ascii ascii]
      obtain ⟨e, failed⟩ := readHeader_cut_field begun within
      refine ⟨e, ?_⟩
      unfold readFrame
      rw [failed]
      rfl
    · have past : (encode (field body.length ++ lineEnd)).length ≤ k := by omega
      rw [List.take_append, List.take_of_length_le past]
      refine readFrame_cut_rest nonempty fits ?_
      rw [List.length_append] at cut
      omega

theorem frame_pos (body : Bytes) : 0 < (frame body).length := by
  rw [frame_eq]
  simp only [List.length_append]
  have : 0 < (encode lineEnd).length := by decide
  omega

private theorem flatMap_take_succ (body : Bytes) (bodies : List Bytes) (m : Nat) :
    ((body :: bodies).take (m + 1)).flatMap frame = frame body ++ (bodies.take m).flatMap frame :=
  rfl

/-- The cut falls within the first frame. -/
private theorem readFrames_take_first {bodies : List Bytes} {cut : Nat} (nonempty : body ≠ [])
    (fits : body.length ≤ maxContentLength) (within : cut < (frame body).length) :
    (readFrames ((frame body ++ bodies.flatMap frame).take cut)).1 = [] ∧
      ((readFrames ((frame body ++ bodies.flatMap frame).take cut)).2 = .eof ↔ cut = 0) := by
  obtain ⟨e, failed⟩ := readFrame_cut nonempty fits within
  have eof := @readFrame_eof ((frame body).take cut)
  rw [failed, List.take_eq_nil_iff] at eof
  rw [List.take_append_of_le_length (Nat.le_of_lt within), readFrames_error failed]
  refine ⟨rfl, ?_⟩
  have positive := frame_pos body
  constructor
  · intro same
    rcases eof.mp (congrArg Except.error same) with zero | none
    · exact zero
    · rw [none] at positive
      cases positive
  · exact fun zero => Except.error.inj (eof.mpr (.inl zero))

/-- A stream of frames that is cut anywhere yields the bodies of the frames before the cut, and
a clean end exactly when the cut falls between two frames. -/
theorem readFrames_take {bodies : List Bytes}
    (fit : ∀ body ∈ bodies, body ≠ [] ∧ body.length ≤ maxContentLength) (cut : Nat) :
    ∃ n ≤ bodies.length,
      (readFrames ((bodies.flatMap frame).take cut)).1 = bodies.take n ∧
      (∀ m ≤ bodies.length, m ≤ n ↔ ((bodies.take m).flatMap frame).length ≤ cut) ∧
      ((readFrames ((bodies.flatMap frame).take cut)).2 = .eof ↔
        ∃ m ≤ bodies.length, (bodies.flatMap frame).take cut = (bodies.take m).flatMap frame) := by
  induction bodies generalizing cut with
  | nil =>
    have ended : readFrames [] = ([], .eof) := readFrames_error (readFrame_eof.mpr rfl)
    refine ⟨0, Nat.le_refl 0, ?_, fun m h => ?_, ?_⟩
    · simp [ended]
    · obtain rfl := Nat.le_zero.mp h
      simp
    · simp [ended]
  | cons body bodies ih =>
    obtain ⟨nonempty, fits⟩ := fit body List.mem_cons_self
    have positive := frame_pos body
    rw [List.flatMap_cons]
    by_cases within : cut < (frame body).length
    · obtain ⟨none, eof⟩ := @readFrames_take_first body bodies cut nonempty fits within
      refine ⟨0, Nat.zero_le _, none, fun m _ => ?_, eof.trans ?_⟩
      · cases m with
        | zero => simp
        | succ m =>
          rw [flatMap_take_succ, List.length_append]
          omega
      · constructor
        · rintro rfl
          exact ⟨0, Nat.zero_le _, rfl⟩
        · rintro ⟨m, -, same⟩
          cases m with
          | zero =>
            rw [List.take_append_of_le_length (Nat.le_of_lt within), List.take_zero,
              List.flatMap_nil, List.take_eq_nil_iff] at same
            rcases same with zero | none
            · exact zero
            · rw [none] at positive
              cases positive
          | succ m =>
            have lengths := congrArg List.length same
            rw [flatMap_take_succ, List.length_take, List.length_append,
              List.length_append] at lengths
            omega
    · obtain ⟨n, le, bodies_eq, wholes, eof⟩ :=
        ih (fun b h => fit b (List.mem_cons_of_mem body h)) (cut - (frame body).length)
      have cut_eq : (frame body ++ bodies.flatMap frame).take cut =
          frame body ++ (bodies.flatMap frame).take (cut - (frame body).length) := by
        rw [List.take_append, List.take_of_length_le (Nat.not_lt.mp within)]
      rw [cut_eq, readFrames_ok (readFrame_frame fits _)]
      refine ⟨n + 1, Nat.succ_le_succ le, congrArg (body :: ·) bodies_eq, fun m h => ?_,
        eof.trans ?_⟩
      · cases m with
        | zero => simp
        | succ m =>
          have whole := wholes m (Nat.le_of_succ_le_succ h)
          rw [flatMap_take_succ, List.length_append]
          omega
      · constructor
        · rintro ⟨m, le, same⟩
          exact ⟨m + 1, Nat.succ_le_succ le, by rw [flatMap_take_succ, same]⟩
        · rintro ⟨m, le, same⟩
          cases m with
          | zero =>
            have lengths := congrArg List.length same
            rw [List.length_append] at lengths
            change _ = 0 at lengths
            omega
          | succ m =>
            rw [flatMap_take_succ, List.append_cancel_left_eq] at same
            exact ⟨m, Nat.le_of_succ_le_succ le, same⟩

/-- Two bodies, of which the second reads like a header. -/
def twoBodies : List Bytes := [encode "\x7b\x7d".toList, encode "Content-Length: 9\r\n\r\n".toList]

theorem readFrames_take_two :
    (readFrames ((twoBodies.flatMap frame).take 50)).1 = [encode "\x7b\x7d".toList] ∧
      (readFrames ((twoBodies.flatMap frame).take 50)).2 ≠ .eof := by
  obtain ⟨n, le, bodies, wholes, eof⟩ := @readFrames_take twoBodies (by decide) 50
  have one : 1 ≤ n := (wholes 1 (by decide)).mpr (by decide)
  have two : ¬ 2 ≤ n := fun h => absurd ((wholes 2 (by decide)).mp h) (by decide)
  obtain rfl : n = 1 := by omega
  refine ⟨bodies, fun clean => ?_⟩
  revert eof
  rw [clean]
  decide

/-! The decoding of a body. -/

/-- What `serde_json` makes of the bytes of a body, for each type that is decoded; of the
events only the `body` field is used. -/
structure Serde where
  envelope : Bytes → Option Envelope
  response : Bytes → Option Response
  stopped : Bytes → Option StoppedBody
  output : Bytes → Option OutputBody
  exited : Bytes → Option ExitedBody

/-- `map_err(WireError::Json)`. -/
def orJson {α : Type} : Option α → Except WireError α
  | some value => .ok value
  | none => .error .json

/-- `Event::from_envelope`: nothing for an event that is not modeled. -/
def eventFromEnvelope (serde : Serde) (bytes : Bytes) (envelope : Envelope) :
    Except WireError (Option Event) :=
  match envelope.event with
  | none => .ok none
  | some name =>
    match name with
    | "initialized" => .ok (some .initialized)
    | "stopped" => do return some (.stopped (← orJson (serde.stopped bytes)))
    | "output" => do return some (.output (← orJson (serde.output bytes)))
    | "exited" => do return some (.exited (← orJson (serde.exited bytes)))
    | "terminated" => .ok (some .terminated)
    | "thread" => .ok (some .thread)
    | "breakpoint" => .ok (some .breakpoint)
    | "process" => .ok (some .process)
    | "continued" => .ok (some .continued)
    | "module" => .ok (some .module)
    | "capabilities" => .ok (some .capabilities)
    | _ => .ok none

/-- `DapMessage::from_slice`. -/
def fromSlice (serde : Serde) (bytes : Bytes) : Except WireError DapMessage := do
  let envelope ← orJson (serde.envelope bytes)
  match envelope.ty with
  | "response" => return .response (← orJson (serde.response bytes))
  | "event" =>
    match ← eventFromEnvelope serde bytes envelope with
    | some event => return .event event
    | none => return .other envelope
  | _ => return .other envelope

/-- `read_message`: one message, and the bytes after it. -/
def readMessage (serde : Serde) (bytes : Bytes) : Except WireError (DapMessage × Bytes) := do
  let (body, rest) ← readFrame bytes
  return (← fromSlice serde body, rest)

variable {serde : Serde} {message : DapMessage}

theorem readMessage_rest (read : readMessage serde bytes = .ok (message, rest)) :
    rest.length < bytes.length := by
  unfold readMessage at read
  cases framed : readFrame bytes with
  | error e =>
    rw [framed] at read
    cases read
  | ok result =>
    obtain ⟨body, after⟩ := result
    rw [framed] at read
    cases decoded : fromSlice serde body with
    | error e =>
      simp only [bind, Except.bind, decoded] at read
      cases read
    | ok m =>
      simp only [bind, Except.bind, decoded, pure, Except.pure] at read
      cases read
      exact readFrame_rest framed

/-- The messages that successive reads return, up to the first error. -/
def readMessages (serde : Serde) (bytes : Bytes) : List DapMessage :=
  match _h : readMessage serde bytes with
  | .error _ => []
  | .ok (message, rest) => message :: readMessages serde rest
termination_by bytes.length
decreasing_by exact readMessage_rest _h

theorem readMessages_error (failed : readMessage serde bytes = .error e) :
    readMessages serde bytes = [] := by
  rw [readMessages]
  split
  · rfl
  · rename_i eq
    cases failed.symm.trans eq

theorem readMessages_ok (read : readMessage serde bytes = .ok (message, rest)) :
    readMessages serde bytes = message :: readMessages serde rest := by
  rw [readMessages]
  split
  · rename_i eq
    cases read.symm.trans eq
  · rename_i eq
    cases read.symm.trans eq
    rfl

end LldbDebugMcp.Client.Wire
