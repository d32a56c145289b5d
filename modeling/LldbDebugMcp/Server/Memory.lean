/- module: LldbDebugMcp/Server/Memory
   source: crates/mcp-tools/src/handlers/{memory,inspection,run_command}.rs
   digest: The handlers that read of the debuggee and write nothing, from its memory to the dump. -/

import LldbDebugMcp.Backend.Refinement
import LldbDebugMcp.Server.HexDump
import LldbDebugMcp.Server.Rendering

set_option autoImplicit false
set_option relaxedAutoImplicit false

namespace LldbDebugMcp.Server.Memory

open LldbDebugMcp.Core.Types
open LldbDebugMcp.Library
open LldbDebugMcp.Library.Effect
open LldbDebugMcp.Library.Text (hexValue hexNumber hexadecimal)
open LldbDebugMcp.Session.Manager (State)
open LldbDebugMcp.Backend.Operations (Op)
open LldbDebugMcp.Backend.Answers
open LldbDebugMcp.Backend.Refinement
open LldbDebugMcp.Server.Arguments
open LldbDebugMcp.Server.HexDump
open LldbDebugMcp.Server.Inspection (nonempty)
open LldbDebugMcp.Server.Response

/-- What these handlers consult: the session and the backend slot, each under a lock of its own,
and the backend. -/
inductive Access where
  | checkState (allowed : List State)
  | lastStopped
  /-- Whether a backend is connected. -/
  | currentBackend
  | threads
  | stackTrace (threadId start levels : Int)
  | evaluate (expr : String) (frameId : Option Int) (mode : EvalMode)
  | readMemory (address : String) (count : Int)
  | disassemble (address : String) (count : Int)

@[reducible] def Access.Result : Access → Type
  | .checkState _ => Except String Unit
  | .lastStopped => Option StopInfo
  | .currentBackend => Bool
  | .threads => Except BackendError (List ThreadInfo)
  | .stackTrace .. => Except BackendError (List Frame × Int)
  | .evaluate .. => Except BackendError EvalResult
  | .readMemory .. => Except BackendError MemoryRead
  | .disassemble .. => Except BackendError (List Instruction)

/-- A handler, with the text of an error as its early return. -/
abbrev Handler := ExceptT String (Program Access Access.Result)

/-- The fields of a response. -/
abbrev Fields := List (String × Value)

def access (a : Access) : Handler a.Result := .mk do return .ok (← Program.perform a)

def lastStopped : Handler (Option StopInfo) := access .lastStopped

def threads : Handler (Except BackendError (List ThreadInfo)) := access .threads

def stackTrace (threadId start levels : Int) : Handler (Except BackendError (List Frame × Int)) :=
  access (.stackTrace threadId start levels)

def evaluate (expr : String) (frameId : Option Int) (mode : EvalMode) :
    Handler (Except BackendError EvalResult) := access (.evaluate expr frameId mode)

def readMemory (address : String) (count : Int) : Handler (Except BackendError MemoryRead) :=
  access (.readMemory address count)

def disassemble (address : String) (count : Int) :
    Handler (Except BackendError (List Instruction)) := access (.disassemble address count)

def ofExcept {α : Type} (r : Except String α) : Handler α := .mk (return r)

def checkStopped : Handler Unit := do ofExcept (← access (.checkState [.stopped]))

def currentBackend (o : OpError) : Handler Unit := do
  if ← access .currentBackend then return ()
  else throw o.requestFailed

/-- What an operation of the backend returns; an error goes under the verbs of the call site. -/
def rendered {α : Type} (o : OpError) (r : Except BackendError α) : Handler α :=
  ofExcept (r.mapError o.render)

/-- An address with a `0x` in front of it. -/
def normalizeHex (address : String) : String :=
  if ['0', 'x'].isPrefixOf address.toList || ['0', 'X'].isPrefixOf address.toList then address
  else "0x" ++ address

/-- The value of a hexadecimal digit. -/
def hexDigit (c : Char) : Option Nat :=
  if 'A' ≤ c ∧ c ≤ 'F' then some (c.toNat - 55) else hexValue c

/-- The loop of `u64::from_str_radix`; the error is about the first character that is no digit or
leads out of range. -/
def parseDigits (n : Nat) : List Char → Except String Nat
  | [] => .ok n
  | c :: rest =>
    match hexDigit c with
    | none => .error "invalid digit found in string"
    | some x =>
      if 16 * n + x < 2 ^ 64 then parseDigits (16 * n + x) rest
      else .error "number too large to fit in target type"

/-- `u64::from_str_radix` at sixteen, with an optional plus sign. -/
def fromStrRadix16 (text : List Char) : Except String UInt64 :=
  if text = [] then .error "cannot parse integer from empty string"
  else if text = ['+'] ∨ text = ['-'] then .error "invalid digit found in string"
  else
    (parseDigits 0 (if text.head? = some '+' then text.tail else text)).map UInt64.ofNat

/-- The address of the first byte of a dump. -/
def parseAddress (address : String) : Except String UInt64 :=
  let digits := ((Text.stripPrefix ['0', 'x'] address.toList).or
    (Text.stripPrefix ['0', 'X'] address.toList)).getD address.toList
  (fromStrRadix16 digits).mapError fun e => "failed to parse address: " ++ e

def handleReadMemory (args : Args) : Handler Fields := do
  checkStopped
  let address ← ofExcept (args.requireString "address")
  let count ← ofExcept (args.requirePositiveInt "count")
  let address := normalizeHex address
  currentBackend Rendering.OpError.readMemory
  let read ← rendered Rendering.OpError.readMemory (← readMemory address count)
  -- The request address is parsed for a dump alone.
  if read.data.isEmpty then
    return [("address", .string read.address), ("bytes_read", .int 0)]
  else
    let startAddr ← ofExcept (parseAddress address)
    return [("address", .string read.address), ("bytes_read", .int read.data.length),
      ("hex_dump", .string (String.ofList (formatHexDump read.data startAddr)))]

/-- The instruction count: twenty, unless a positive number is given. -/
def instructionCount (args : Args) : Int :=
  match args.getF64 "instruction_count" with
  | some count => if count > 0 then castI64 count else 20
  | none => 20

/-- The instruction pointer of the top frame. -/
def topPointer (frames : List Frame) : Except String String :=
  (frames.head?.bind fun f => nonempty f.instructionPointer).elim
    (.error "no instruction pointer available for current frame") .ok

/-- An optional field of text. -/
def textField (key text : String) : Fields := if text.isEmpty then [] else [(key, .string text)]

def instructionItem (currentPc : String) (inst : Instruction) : Value :=
  .object ([("address", .string inst.address), ("instruction", .string inst.instruction)] ++
    textField "bytes" inst.bytes ++ textField "symbol" inst.symbol ++
    ((nonempty inst.sourcePath).elim [] fun path =>
      [("file", .string path), ("line", .int inst.line)]) ++
    if !currentPc.isEmpty && inst.address = currentPc then [("is_current_pc", .bool true)] else [])

/-- The top frame's instruction pointer, of the thread that was stopped last, else of the first. -/
def currentPointer : Handler String := do
  let threadId := ((← lastStopped).map StopInfo.threadId).getD 1
  let (frames, _) ← rendered Inspection.OpError.stackTrace (← stackTrace threadId 0 1)
  ofExcept (topPointer frames)

/-- Without an address: the current PC, which is then marked. -/
def startPointer (given : String) : Handler String :=
  if given.isEmpty then currentPointer else return ""

def handleDisassemble (args : Args) : Handler Fields := do
  checkStopped
  let given := args.getString "address" ""
  currentBackend Rendering.OpError.disassemble
  let ip ← startPointer given
  let address := normalizeHex (if given.isEmpty then ip else given)
  let currentPc := if ip.isEmpty then ip else normalizeHex ip
  let instructions ← rendered Rendering.OpError.disassemble
    (← disassemble address (instructionCount args))
  return [("instructions", .array (instructions.map (instructionItem currentPc))),
    ("count", .int instructions.length), ("start_address", .string address)]

def threadItem (last : Option Int) (th : ThreadInfo) : Value :=
  .object ([("id", .int th.id), ("name", .string th.name)] ++
    if some th.id = last then [("is_stopped", .bool true), ("is_current", .bool true)] else [])

/-- The stopped thread, where the threads hold it. -/
def stoppedThreadId (last : Option Int) (threads : List ThreadInfo) : Option Int :=
  threads.foldl (fun found th => if some th.id = last then some th.id else found) none

def handleThreads : Handler Fields := do
  checkStopped
  currentBackend Rendering.OpError.threads
  let items ← rendered Rendering.OpError.threads (← threads)
  -- The session is read after the request.
  let last := (← lastStopped).map StopInfo.threadId
  return [("threads", .array (items.map (threadItem last))), ("count", .int items.length)] ++
    (stoppedThreadId last items).elim [] fun id => [("stopped_thread_id", .int id)]

def handleRunCommand (args : Args) : Handler Fields := do
  checkStopped
  let command ← ofExcept (args.requireString "command")
  currentBackend Rendering.OpError.runCommand
  let result ← rendered Rendering.OpError.runCommand (← evaluate command none .repl)
  return [("result", .string result.result), ("type", .string result.ty)]

/-! What a handler comes to. -/

section

variable {α β : Type} (seen : (a : Access) → a.Result)

/-- What a handler comes to when each operation results in what it says. -/
def come (h : Handler α) : Except String α := h.run.eval seen

@[simp] theorem come_bind (h : Handler β) (f : β → Handler α) :
    come seen (h >>= f) = (come seen h).bind fun v => come seen (f v) := by
  change (h.run.bind _).eval seen = (h.run.eval seen).bind _
  rw [Program.eval_bind]
  cases h.run.eval seen <;> rfl

@[simp] theorem come_pure (v : α) : come seen (pure v) = .ok v := rfl

@[simp] theorem come_throw (e : String) : come seen (throw e : Handler α) = .error e := rfl

@[simp] theorem come_lastStopped : come seen lastStopped = .ok (seen .lastStopped) := rfl

@[simp] theorem come_threads : come seen threads = .ok (seen .threads) := rfl

@[simp] theorem come_stackTrace (threadId start levels : Int) :
    come seen (stackTrace threadId start levels) = .ok (seen (.stackTrace threadId start levels)) :=
  rfl

@[simp] theorem come_evaluate (expr : String) (frameId : Option Int) (mode : EvalMode) :
    come seen (evaluate expr frameId mode) = .ok (seen (.evaluate expr frameId mode)) := rfl

@[simp] theorem come_readMemory (address : String) (count : Int) :
    come seen (readMemory address count) = .ok (seen (.readMemory address count)) := rfl

@[simp] theorem come_disassemble (address : String) (count : Int) :
    come seen (disassemble address count) = .ok (seen (.disassemble address count)) := rfl

@[simp] theorem come_ofExcept (r : Except String α) : come seen (ofExcept r) = r := rfl

@[simp] theorem come_rendered (o : OpError) (r : Except BackendError α) :
    come seen (rendered o r) = r.mapError o.render := rfl

@[simp] theorem come_checkStopped : come seen checkStopped = seen (.checkState [.stopped]) := rfl

@[simp] theorem come_currentBackend (o : OpError) : come seen (currentBackend o) =
    if seen .currentBackend then .ok () else .error o.requestFailed := by
  change come seen (if seen .currentBackend then _ else _ : Handler Unit) = _
  cases seen .currentBackend <;> rfl

end

/-! Addresses. -/

theorem hexDigit_of_hexValue {c : Char} {x : Nat} (digit : hexValue c = some x) :
    hexDigit c = some x := by
  have lower : ¬ ('A' ≤ c ∧ c ≤ 'F') := by
    rintro ⟨low, high⟩
    unfold hexValue at digit
    simp only [Char.le_def, UInt32.le_iff_toNat_le] at low high digit
    split at digit
    · rename_i range
      have : c.val.toNat ≤ '9'.val.toNat := range.2
      have : 'A'.val.toNat ≤ c.val.toNat := low
      have : '9'.val.toNat < 'A'.val.toNat := by decide
      omega
    · split at digit
      · rename_i range
        have : 'a'.val.toNat ≤ c.val.toNat := range.1
        have : c.val.toNat ≤ 'F'.val.toNat := high
        have : 'F'.val.toNat < 'a'.val.toNat := by decide
        omega
      · cases digit
  rw [hexDigit, if_neg lower, digit]

/-- A number grows with its digits. -/
theorem le_of_foldlM {text : List Char} {m n : Nat}
    (read : text.foldlM (fun n c => (hexValue c).map (16 * n + ·)) m = some n) : m ≤ n := by
  induction text generalizing m with
  | nil => exact (Option.some.inj read).le
  | cons c rest ih =>
    obtain ⟨m', digit, later⟩ := Option.bind_eq_some_iff.mp read
    obtain ⟨x, -, rfl⟩ := Option.map_eq_some_iff.mp digit
    have := ih later
    omega

/-- The digits of a number in range are read. -/
theorem parseDigits_ok {text : List Char} {m n : Nat} (small : n < 2 ^ 64)
    (read : text.foldlM (fun n c => (hexValue c).map (16 * n + ·)) m = some n) :
    parseDigits m text = .ok n := by
  induction text generalizing m with
  | nil => exact congrArg Except.ok (Option.some.inj read)
  | cons c rest ih =>
    obtain ⟨m', digit, rest_read⟩ := Option.bind_eq_some_iff.mp read
    obtain ⟨x, value, rfl⟩ := Option.map_eq_some_iff.mp digit
    have fits : 16 * m + x < 2 ^ 64 := Nat.lt_of_le_of_lt (le_of_foldlM rest_read) small
    simp only [parseDigits, hexDigit_of_hexValue value, fits, if_true]
    exact ih rest_read

/-- A hexadecimal form is read as its number. -/
theorem fromStrRadix16_hexadecimal (width : Nat) (addr : UInt64) :
    fromStrRadix16 (hexadecimal width addr.toNat) = .ok addr := by
  have read : hexNumber (hexadecimal width addr.toNat) = some addr.toNat :=
    Text.hexNumber_hexadecimal width addr.toNat
  have signs : ∀ c ∈ hexadecimal width addr.toNat, c ≠ '+' ∧ c ≠ '-' := by
    intro c mem
    have digit := Text.hexValue_of_mem_hexadecimal mem
    constructor <;>
    · rintro rfl
      cases digit
  have first : (hexadecimal width addr.toNat).head? ≠ some '+' := fun sign =>
    (signs '+' (List.mem_of_mem_head? sign)).1 rfl
  have some_digit : hexadecimal width addr.toNat ≠ [] := by
    intro none
    have digits := congrArg List.length none
    simp [hexadecimal, List.leftpad, Nat.toDigits_ne_nil] at digits
  have sign : ¬ (hexadecimal width addr.toNat = ['+'] ∨ hexadecimal width addr.toNat = ['-']) := by
    rintro (plus | minus)
    · exact (signs '+' (plus ▸ List.mem_singleton_self _)).1 rfl
    · exact (signs '-' (minus ▸ List.mem_singleton_self _)).2 rfl
  rw [fromStrRadix16, if_neg some_digit, if_neg sign, if_neg first,
    parseDigits_ok addr.toNat_lt read]
  exact congrArg Except.ok (UInt64.ofNat_toNat)

/-- The label of a dump's line is an address, with its prefix there. -/
theorem normalizeHex_label (digits : List Char) :
    normalizeHex (String.ofList (['0', 'x'] ++ digits)) = String.ofList (['0', 'x'] ++ digits) := by
  have marked : ['0', 'x'].isPrefixOf (String.ofList (['0', 'x'] ++ digits)).toList = true := by
    rw [String.toList_ofList]
    rfl
  rw [normalizeHex, marked, Bool.true_or, if_pos rfl]

theorem parseAddress_label (addr : UInt64) :
    parseAddress (String.ofList (['0', 'x'] ++ hexadecimal 8 addr.toNat)) = .ok addr := by
  have digits : Text.stripPrefix ['0', 'x']
      (String.ofList (['0', 'x'] ++ hexadecimal 8 addr.toNat)).toList =
      some (hexadecimal 8 addr.toNat) := by
    rw [String.toList_ofList]
    rfl
  simp only [parseAddress, digits, Option.some_or, Option.getD_some, fromStrRadix16_hexadecimal]
  rfl

/-! Over an adapter, and against the debuggee itself. -/

/-- What a call finds in the session and in the backend slot, each at the moment it looks. -/
structure Found where
  checked : Except String Unit
  lastStopped : Option StopInfo
  connected : Bool

/-- Past the guard, with a backend. -/
structure Found.Ready (found : Found) : Prop where
  checked : found.checked = .ok ()
  connected : found.connected = true

/-- The backend's operations are programs over an adapter. -/
def through (env : Backend.Queries.Env) (answers : (i : Op) → i.Result) (found : Found) :
    (a : Access) → a.Result
  | .checkState _ => found.checked
  | .lastStopped => found.lastStopped
  | .currentBackend => found.connected
  | .threads => (Backend.Queries.threads env).run.eval answers
  | .stackTrace threadId start levels =>
    (Backend.Queries.stackTrace env threadId start levels).run.eval answers
  | .evaluate expr frameId mode =>
    (Backend.Queries.evaluate env expr frameId mode).run.eval answers
  | .readMemory address count => (Backend.Queries.readMemory env address count).run.eval answers
  | .disassemble address count => (Backend.Queries.disassemble env address count).run.eval answers

/-- The backend's operations are queries of the debuggee. -/
def against (isLldbDap : Bool) (d : Debuggee) (stderr : String) (found : Found) :
    (a : Access) → a.Result
  | .checkState _ => found.checked
  | .lastStopped => found.lastStopped
  | .currentBackend => found.connected
  | .threads => result d stderr .threads
  | .stackTrace threadId start levels => result d stderr (.stackTrace threadId start levels)
  | .evaluate expr frameId .expression => result d stderr (.evaluate expr frameId "variables")
  | .evaluate expr _ .repl =>
    result d stderr (.evaluate (if isLldbDap then expr else "`" ++ expr) none "repl")
  | .readMemory address count => result d stderr (.readMemory address count)
  | .disassemble address count => result d stderr (.disassemble address count)

section

variable {env : Backend.Queries.Env} {answers : (i : Op) → i.Result} {d : Debuggee}
  {stderr : String} {found : Found} {args : Args} {address : String} {count : Int}

theorem through_eq (standard : Env.Standard env) (serves : Serves answers d stderr)
    (found : Found) : through env answers found = against env.isLldbDap d stderr found := by
  have told (a : Ask) :
      (a.program env).run.eval answers = result d stderr (a.query env.isLldbDap) := by
    obtain ⟨response, replied, answered⟩ := serves.serves _ _ (a.asked_request env)
    exact eval_answered standard a serves.stderr replied answered
  funext a
  cases a with
  | checkState | lastStopped | currentBackend => rfl
  | threads => exact told .threads
  | stackTrace threadId start levels => exact told (.stackTrace threadId start levels)
  | evaluate expr frameId mode =>
    cases mode with
    | expression => exact told (.evaluate expr frameId .expression)
    | repl => exact told (.evaluate expr frameId .repl)
  | readMemory address count => exact told (.readMemory address count)
  | disassemble address count => exact told (.disassemble address count)

/-- How a memory response reads: the debuggee's address, how many bytes there are, and a dump whose
columns are these bytes and whose labels count from the start. -/
structure Dumped (m : MemoryRead) (start : UInt64) (fields : Fields) : Prop where
  address : fields.lookup "address" = some (.string m.address)
  bytes_read : fields.lookup "bytes_read" = some (.int m.data.length)
  dump : ∃ dump : List Char, fields.lookup "hex_dump" = some (.string (String.ofList dump)) ∧
    (linesOf dump).flatMap readColumns = m.data ∧
    ∀ (k : Nat) (line : List Char), (linesOf dump)[k]? = some line →
      readLabel line = some ((start.toNat + 16 * k) % 2 ^ 64)

theorem result_ok {q : Query} {answer : q.Answer} (answered : d q = .ok answer) :
    result d stderr q = .ok answer := by
  rw [result, answered]

theorem result_error {q : Query} {message : String} (refused : d q = .error message) :
    result d stderr q = .error (.dap (q.command ++ " failed: " ++ reason stderr message)) := by
  rw [result, refused]

/-- What is left of a memory read once the backend has been asked. -/
theorem come_handleReadMemory {seen : (a : Access) → a.Result}
    (stopped : seen (.checkState [.stopped]) = .ok ()) (connected : seen .currentBackend = true)
    (located : args.requireString "address" = .ok address)
    (counted : args.requirePositiveInt "count" = .ok count) :
    (∀ e, seen (.readMemory (normalizeHex address) count) = .error e →
      come seen (handleReadMemory args) = .error (Rendering.OpError.readMemory.render e)) ∧
    ∀ m, seen (.readMemory (normalizeHex address) count) = .ok m →
      come seen (handleReadMemory args) =
        if m.data = [] then .ok [("address", .string m.address), ("bytes_read", .int 0)]
        else (parseAddress (normalizeHex address)).map fun start =>
          [("address", .string m.address), ("bytes_read", .int m.data.length),
            ("hex_dump", .string (String.ofList (formatHexDump m.data start)))] := by
  simp only [handleReadMemory, come_bind, come_checkStopped, stopped, come_ofExcept, located,
    counted, come_currentBackend, connected, come_readMemory, come_rendered, Except.bind, if_true]
  refine ⟨fun e refused => by rw [refused]; rfl, fun m read => ?_⟩
  rw [read]
  change come seen (if m.data.isEmpty = true then _ else _) = _
  by_cases empty : m.data = []
  · rw [if_pos empty, if_pos (List.isEmpty_iff.mpr empty)]
    rfl
  · rw [if_neg empty, if_neg fun h => empty (List.isEmpty_iff.mp h), come_bind, come_ofExcept]
    cases parseAddress (normalizeHex address) <;> rfl

/-- What the debuggee holds in its memory is what a memory read shows: over any adapter that
answers for it, the bytes come through the encoding, the wire and the dump, each under the label
of its line. An address is parsed for a dump alone, after the read. -/
theorem memory_shown (standard : Env.Standard env) (serves : Serves answers d stderr)
    (ready : found.Ready) (located : args.requireString "address" = .ok address)
    (counted : args.requirePositiveInt "count" = .ok count) :
    (∀ message, d (.readMemory (normalizeHex address) count) = .error message →
      come (through env answers found) (handleReadMemory args) =
        .error (Rendering.OpError.readMemory.render
          (.dap ("readMemory failed: " ++ reason stderr message)))) ∧
    ∀ m : MemoryRead, d (.readMemory (normalizeHex address) count) = .ok m →
      (m.data = [] → come (through env answers found) (handleReadMemory args) =
        .ok [("address", .string m.address), ("bytes_read", .int 0)]) ∧
      (m.data ≠ [] →
        (∀ start, parseAddress (normalizeHex address) = .ok start → ∃ fields,
          come (through env answers found) (handleReadMemory args) = .ok fields ∧
            Dumped m start fields) ∧
        ∀ e, parseAddress (normalizeHex address) = .error e →
          come (through env answers found) (handleReadMemory args) = .error e) := by
  rw [through_eq standard serves]
  obtain ⟨failing, reading⟩ := @come_handleReadMemory args address count
    (against env.isLldbDap d stderr found) ready.checked ready.connected located counted
  refine ⟨fun message refused => failing _ (result_error refused), fun m answered => ?_⟩
  rw [reading m (result_ok answered)]
  refine ⟨fun empty => if_pos empty, fun some_data => ?_⟩
  rw [if_neg some_data]
  refine ⟨fun start parsed => ?_, fun e failed => by rw [failed]; rfl⟩
  rw [parsed]
  exact ⟨_, rfl, rfl, rfl, _, rfl, columns_of_linesOf m.data start,
    fun k line here => (reads_of_mem_linesOf here).label⟩

/-- A call with an address and a count. -/
def readArgs (address : String) (count : Rat) : Args :=
  ⟨(AList.singleton "address" (.string address)).insert "count" (.number count)⟩

theorem readArgs_address (address : String) (count : Rat) :
    (readArgs address count).requireString "address" = .ok address := by
  have found : (readArgs address count).getRaw "address" = some (.string address) := by
    rw [Args.getRaw, readArgs, AList.lookup_insert_ne (by decide)]
    rfl
  rw [Args.requireString, found]

theorem readArgs_count {address : String} {count : Rat} (positive : 0 < castI64 count) :
    (readArgs address count).requirePositiveInt "count" = .ok (castI64 count) := by
  have found : (readArgs address count).getRaw "count" = some (.number count) :=
    AList.lookup_insert _
  rw [Args.requirePositiveInt, Args.requireInt, found]
  exact if_neg (Int.not_le.mpr positive)

/-- A stopped session with a backend. -/
def atStop : Found := ⟨.ok (), some ⟨"breakpoint", 7, "", []⟩, true⟩

theorem serves_memoryOnly : Serves (adapter memoryOnly "gone") memoryOnly "gone" :=
  serves_adapter (fun q answer answered => by
    cases q with
    | readMemory => trivial
    | _ => cases answered) "gone"

theorem memory_shown_bytes : ∃ fields,
    come (through (reference false) (adapter memoryOnly "gone") atStop)
      (handleReadMemory (readArgs "1000" 4)) = .ok fields ∧
    Dumped ⟨"0x1000", [0x48, 0x89, 0xe5, 0x00]⟩ 0x1000 fields :=
  (((memory_shown (standard_reference false) serves_memoryOnly ⟨rfl, rfl⟩
    (readArgs_address "1000" 4) (readArgs_count (by decide))).2 _ rfl).2 (by decide)).1 0x1000
      (by decide +kernel)

/-! Reading on from a line of a dump. -/

/-- The bytes of a memory from an address on, round the end of the address space. -/
def bytesAt (image : UInt64 → UInt8) (start : UInt64) (count : Nat) : List UInt8 :=
  (List.range count).map fun i => image (start + UInt64.ofNat i)

/-- A debuggee whose memory holds these bytes, and all of them readable. -/
def Remembers (d : Debuggee) (image : UInt64 → UInt8) : Prop :=
  ∀ address count start, parseAddress address = .ok start → ∃ shown,
    d (.readMemory address count) = .ok ⟨shown, bytesAt image start count.toNat⟩

/-- The lines of the dump that a call returns. -/
def dumpLines : Except String Fields → List (List Char)
  | .ok fields =>
    match fields.lookup "hex_dump" with
    | some (.string dump) => linesOf dump.toList
    | _ => []
  | .error _ => []

theorem bytesAt_drop (image : UInt64 → UInt8) (start : UInt64) (count k : Nat) :
    bytesAt image (start + UInt64.ofNat k) (count - k) = (bytesAt image start count).drop k := by
  refine List.ext_getElem? fun i => ?_
  rw [bytesAt, bytesAt, List.getElem?_drop, List.getElem?_map, List.getElem?_map]
  by_cases short : i < count - k
  · rw [List.getElem?_range short, List.getElem?_range (by omega), Option.map_some,
      Option.map_some, UInt64.ofNat_add, UInt64.add_assoc]
  · rw [List.getElem?_eq_none (by rw [List.length_range]; omega),
      List.getElem?_eq_none (by rw [List.length_range]; omega), Option.map_none, Option.map_none]

theorem dumpLines_read {image : UInt64 → UInt8} (standard : Env.Standard env)
    (serves : Serves answers d stderr) (remembers : Remembers d image) (ready : found.Ready)
    (located : args.requireString "address" = .ok address)
    (counted : args.requirePositiveInt "count" = .ok count) {start : UInt64}
    (parsed : parseAddress (normalizeHex address) = .ok start) :
    dumpLines (come (through env answers found) (handleReadMemory args)) =
      linesOf (formatHexDump (bytesAt image start count.toNat) start) := by
  obtain ⟨shown, answered⟩ := remembers _ count start parsed
  have some_byte : bytesAt image start count.toNat ≠ [] := by
    have positive := Args.requirePositiveInt_pos counted
    intro none
    have size := congrArg List.length none
    simp only [bytesAt, List.length_map, List.length_range, List.length_nil] at size
    omega
  rw [through_eq standard serves,
    (come_handleReadMemory ready.checked ready.connected located counted).2 _ (result_ok answered),
    if_neg some_byte, parsed]
  change linesOf (String.ofList _).toList = _
  rw [String.toList_ofList]

/-- Reading on from a line: its label is an address, and what is read from there, over whichever
adapter and at whichever later moment, is the rest of the dump. -/
theorem read_on {image : UInt64 → UInt8} {env' : Backend.Queries.Env}
    {answers' : (i : Op) → i.Result} {stderr' : String} {found' : Found} {args' : Args}
    (standard : Env.Standard env) (standard' : Env.Standard env')
    (serves : Serves answers d stderr) (serves' : Serves answers' d stderr')
    (remembers : Remembers d image) (ready : found.Ready) (ready' : found'.Ready)
    (located : args.requireString "address" = .ok address)
    (counted : args.requirePositiveInt "count" = .ok count) {start : UInt64}
    (parsed : parseAddress (normalizeHex address) = .ok start) {k : Nat} {line : List Char}
    (here : (dumpLines (come (through env answers found) (handleReadMemory args)))[k]? = some line)
    (located' : args'.requireString "address" = .ok (String.ofList (labelOf line)))
    (counted' : args'.requirePositiveInt "count" = .ok (count - 16 * k)) :
    dumpLines (come (through env' answers' found') (handleReadMemory args')) =
      (dumpLines (come (through env answers found) (handleReadMemory args))).drop k := by
  rw [dumpLines_read standard serves remembers ready located counted parsed] at here ⊢
  have label := labelOf_linesOf here
  have marked : normalizeHex (String.ofList (labelOf line)) = String.ofList (labelOf line) := by
    rw [label]
    exact normalizeHex_label _
  have parsed' : parseAddress (normalizeHex (String.ofList (labelOf line))) =
      .ok (start + UInt64.ofNat (16 * k)) := by
    rw [marked, label]
    exact parseAddress_label _
  rw [dumpLines_read standard' serves' remembers ready' located' counted' parsed']
  have left : (count - 16 * k : Int).toNat = count.toNat - 16 * k := by omega
  rw [left, bytesAt_drop, linesOf_drop]

/-- A debuggee of which all memory can be read. -/
def remembering (image : UInt64 → UInt8) : Debuggee
  | .readMemory address count =>
    (parseAddress address).map fun start => ⟨address, bytesAt image start count.toNat⟩
  | _ => .error ""

theorem remembers_remembering (image : UInt64 → UInt8) : Remembers (remembering image) image :=
  fun address count start parsed => ⟨address, by rw [remembering, parsed]; rfl⟩

/-- A dump that goes round the end of the address space. -/
theorem read_on_around : ∃ line,
    (dumpLines (come (through (reference true) (adapter (remembering UInt64.toUInt8) "") atStop)
      (handleReadMemory (readArgs "fffffffffffffff8" 20))))[1]? = some line ∧
    dumpLines (come (through (reference true) (adapter (remembering UInt64.toUInt8) "") atStop)
      (handleReadMemory (readArgs (String.ofList (labelOf line)) 4))) =
      (dumpLines (come (through (reference true) (adapter (remembering UInt64.toUInt8) "") atStop)
        (handleReadMemory (readArgs "fffffffffffffff8" 20)))).drop 1 := by
  have serves : Serves (adapter (remembering UInt64.toUInt8) "") (remembering UInt64.toUInt8) "" :=
    serves_adapter (fun q answer answered => by
      cases q with
      | readMemory => trivial
      | _ => cases answered) ""
  have parsed : parseAddress (normalizeHex "fffffffffffffff8") = .ok 0xfffffffffffffff8 := by
    decide +kernel
  have ready : atStop.Ready := ⟨rfl, rfl⟩
  have remembers := remembers_remembering UInt64.toUInt8
  have lines := dumpLines_read (standard_reference true) serves remembers ready
    (readArgs_address "fffffffffffffff8" 20) (readArgs_count (by decide)) parsed
  have two : 1 < (dumpLines (come (through (reference true)
      (adapter (remembering UInt64.toUInt8) "") atStop)
      (handleReadMemory (readArgs "fffffffffffffff8" 20)))).length := by
    rw [lines, length_linesOf]
    decide +kernel
  have here := List.getElem?_eq_getElem two
  exact ⟨_, here, read_on (standard_reference true) (standard_reference true) serves serves
    remembers ready ready (readArgs_address "fffffffffffffff8" 20) (readArgs_count (by decide))
    parsed here (readArgs_address _ 4) (readArgs_count (by decide))⟩

/-! What is marked as current. -/

/-- A field of an item. -/
def itemField (key : String) : Value → Option Value
  | .object fields => fields.lookup key
  | _ => none

theorem lookup_textField {key text k : String} (other : k ≠ key) :
    (textField key text).lookup k = none := by
  unfold textField
  split
  · rfl
  · rw [lookup_field, if_neg other]
    rfl

/-- An instruction is marked if there is a current PC and it stands there. -/
theorem marks_instructionItem (currentPc : String) (inst : Instruction) :
    itemField "is_current_pc" (instructionItem currentPc inst) = some (.bool true) ↔
      currentPc ≠ "" ∧ inst.address = currentPc := by
  have source : ((nonempty inst.sourcePath).elim [] fun path =>
      [("file", Value.string path), ("line", .int inst.line)]).lookup "is_current_pc" = none := by
    cases nonempty inst.sourcePath <;> rfl
  have first : [("address", Value.string inst.address),
      ("instruction", .string inst.instruction)].lookup "is_current_pc" = none := rfl
  have marks : (!currentPc.isEmpty && decide (inst.address = currentPc)) = true ↔
      currentPc ≠ "" ∧ inst.address = currentPc := by
    simp
  simp only [itemField, instructionItem, List.lookup_append, first, source, ne_eq,
    lookup_textField (show "is_current_pc" ≠ "bytes" by decide),
    lookup_textField (show "is_current_pc" ≠ "symbol" by decide), Option.none_or]
  rw [← ne_eq, ← marks]
  split
  · rename_i current
    exact ⟨fun _ => current, fun _ => rfl⟩
  · rename_i other
    exact ⟨nofun, fun current => absurd current other⟩

theorem nonempty_some {text : Option String} {s : String} (there : nonempty text = some s) :
    s ≠ "" := by
  cases text with
  | none => cases there
  | some t =>
    by_cases empty : t.isEmpty = true
    · simp only [nonempty, empty, if_true] at there
      cases there
    · simp only [nonempty, empty, Bool.false_eq_true, if_false, Option.some.injEq] at there
      exact fun none => empty (String.isEmpty_iff.mpr (there.trans none))

theorem topPointer_nonempty {frames : List Frame} {ip : String} (top : topPointer frames = .ok ip) :
    ip ≠ "" := by
  unfold topPointer at top
  cases pointer : frames.head?.bind fun f => nonempty f.instructionPointer with
  | none =>
    rw [pointer] at top
    cases top
  | some s =>
    rw [pointer] at top
    obtain rfl := Except.ok.inj top
    obtain ⟨f, -, there⟩ := Option.bind_eq_some_iff.mp pointer
    exact nonempty_some there

/-- A text that is there. -/
def given (text : String) : Option String := if text = "" then none else some text

theorem lookup_textField_self (key text : String) :
    (textField key text).lookup key = (given text).map .string := by
  unfold textField given
  by_cases none : text = ""
  · rw [if_pos none, if_pos (String.isEmpty_iff.mpr none)]
    rfl
  · rw [if_neg none, if_neg fun empty => none (String.isEmpty_iff.mp empty), lookup_field,
      if_pos rfl]
    rfl

theorem nonempty_eq (text : Option String) : nonempty text = text.bind given := by
  cases text with
  | none => rfl
  | some text => simp only [nonempty, given, String.isEmpty_iff, Option.bind_some]

/-- How an item of a listing reads: the texts of its instruction, as far as they are there, its
line with its file, and the mark of the current PC. -/
structure Itemized (pc : String) (inst : Instruction) (item : Value) : Prop where
  address : itemField "address" item = some (.string inst.address)
  instruction : itemField "instruction" item = some (.string inst.instruction)
  bytes : itemField "bytes" item = (given inst.bytes).map .string
  symbol : itemField "symbol" item = (given inst.symbol).map .string
  file : itemField "file" item = (inst.sourcePath.bind given).map .string
  line : itemField "line" item = (inst.sourcePath.bind given).map fun _ => .int inst.line
  current : itemField "is_current_pc" item = some (.bool true) ↔ pc ≠ "" ∧ inst.address = pc

/-- A field of an item is one of the texts, or comes with the source, or is the mark. -/
theorem itemField_instructionItem {pc key : String} {inst : Instruction}
    (address : key ≠ "address") (instruction : key ≠ "instruction") :
    itemField key (instructionItem pc inst) =
      ((((textField "bytes" inst.bytes).lookup key).or
        ((textField "symbol" inst.symbol).lookup key)).or
        (((inst.sourcePath.bind given).elim [] fun path =>
          [("file", Value.string path), ("line", .int inst.line)]).lookup key)).or
        ((if !pc.isEmpty && inst.address = pc then [("is_current_pc", Value.bool true)]
          else []).lookup key) := by
  simp only [itemField, instructionItem, List.lookup_append, lookup_field, if_neg address,
    if_neg instruction, List.lookup_nil, Option.none_or, nonempty_eq]

theorem itemized (pc : String) (inst : Instruction) :
    Itemized pc inst (instructionItem pc inst) := by
  have mark : ∀ key, key ≠ "is_current_pc" →
      (if !pc.isEmpty && inst.address = pc then [("is_current_pc", Value.bool true)]
        else []).lookup key = none := by
    intro key other
    split
    · rw [lookup_field, if_neg other]
      rfl
    · rfl
  have source : ∀ key, key ≠ "file" → key ≠ "line" →
      ((inst.sourcePath.bind given).elim [] fun path =>
        [("file", Value.string path), ("line", .int inst.line)]).lookup key = none := by
    intro key file line
    cases inst.sourcePath.bind given with
    | none => rfl
    | some path =>
      simp only [Option.elim_some, lookup_field, if_neg file, if_neg line, List.lookup_nil]
  refine ⟨rfl, rfl, ?_, ?_, ?_, ?_, marks_instructionItem pc inst⟩
  · rw [itemField_instructionItem (by decide) (by decide), lookup_textField_self,
      lookup_textField (by decide), source _ (by decide) (by decide), mark _ (by decide)]
    simp only [Option.or_none]
  · rw [itemField_instructionItem (by decide) (by decide), lookup_textField_self,
      lookup_textField (by decide), source _ (by decide) (by decide), mark _ (by decide)]
    simp only [Option.or_none, Option.none_or]
  · rw [itemField_instructionItem (by decide) (by decide), lookup_textField (by decide),
      lookup_textField (by decide), mark _ (by decide)]
    cases inst.sourcePath.bind given <;> rfl
  · rw [itemField_instructionItem (by decide) (by decide), lookup_textField (by decide),
      lookup_textField (by decide), mark _ (by decide)]
    cases inst.sourcePath.bind given <;> rfl

/-- How a listing reads: one item for each instruction, of which those are marked that stand at
the current PC. -/
structure Listed (insts : List Instruction) (pc start : String) (fields : Fields) : Prop where
  start_address : fields.lookup "start_address" = some (.string start)
  count : fields.lookup "count" = some (.int insts.length)
  items : ∃ items, fields.lookup "instructions" = some (.array items) ∧
    items.length = insts.length ∧ ∀ (i : Nat) (item : Value) (inst : Instruction),
      items[i]? = some item → insts[i]? = some inst → Itemized pc inst item

theorem listed (insts : List Instruction) (pc start : String) : Listed insts pc start
    [("instructions", .array (insts.map (instructionItem pc))), ("count", .int insts.length),
      ("start_address", .string start)] where
  start_address := rfl
  count := rfl
  items := by
    refine ⟨_, rfl, List.length_map .., fun i item inst here there => ?_⟩
    rw [List.getElem?_map, there] at here
    obtain rfl := Option.some.inj here
    exact itemized pc inst

theorem come_currentPointer {seen : (a : Access) → a.Result} {frames : List Frame} {total : Int}
    (traced : seen (.stackTrace (((seen .lastStopped).map StopInfo.threadId).getD 1) 0 1) =
      .ok (frames, total)) : come seen currentPointer = topPointer frames := by
  simp only [currentPointer, come_bind, come_lastStopped, come_stackTrace, come_rendered,
    Except.bind]
  rw [traced]
  rfl

section

variable {seen : (a : Access) → a.Result} (stopped : seen (.checkState [.stopped]) = .ok ())
  (connected : seen .currentBackend = true)

include stopped connected

theorem come_handleDisassemble : come seen (handleDisassemble args) =
    (come seen (startPointer (args.getString "address" ""))).bind fun ip =>
      let address := normalizeHex
        (if (args.getString "address" "").isEmpty then ip else args.getString "address" "")
      ((seen (.disassemble address (instructionCount args))).mapError
        Rendering.OpError.disassemble.render).map fun insts =>
          [("instructions", .array (insts.map (instructionItem
              (if ip.isEmpty then ip else normalizeHex ip)))),
            ("count", .int insts.length), ("start_address", .string address)] := by
  simp only [handleDisassemble, come_bind, come_checkStopped, stopped, come_currentBackend,
    connected, come_disassemble, come_rendered, come_pure, Except.bind, if_true]
  rfl

/-- A disassembly that has found its address, and got the instructions there. -/
theorem come_disassembled {ip address pc : String} {insts : List Instruction}
    (start : come seen (startPointer (args.getString "address" "")) = .ok ip)
    (from_ : normalizeHex (if (args.getString "address" "").isEmpty then ip
      else args.getString "address" "") = address)
    (current : (if ip.isEmpty then ip else normalizeHex ip) = pc)
    (answered : seen (.disassemble address (instructionCount args)) = .ok insts) :
    ∃ fields, come seen (handleDisassemble args) = .ok fields ∧ Listed insts pc address fields := by
  subst from_ current
  refine ⟨_, ?_, listed insts _ _⟩
  rw [come_handleDisassemble stopped connected, start]
  change ((seen (.disassemble _ _)).mapError _).map _ = _
  rw [answered]
  rfl

end

/-- What a disassembly shows, over any adapter that answers for the debuggee: the instructions at
the given address, none of them marked; without an address those at the instruction pointer of the
stopped thread's top frame, and exactly those at the pointer itself marked. -/
theorem listing_shown (standard : Env.Standard env) (serves : Serves answers d stderr)
    (ready : found.Ready) :
    (args.getString "address" "" ≠ "" → ∀ insts : List Instruction,
      d (.disassemble (normalizeHex (args.getString "address" "")) (instructionCount args)) =
          .ok insts →
        ∃ fields, come (through env answers found) (handleDisassemble args) = .ok fields ∧
          Listed insts "" (normalizeHex (args.getString "address" "")) fields) ∧
    (args.getString "address" "" = "" → ∀ (frames : List Frame) (total : Int),
      d (.stackTrace ((found.lastStopped.map StopInfo.threadId).getD 1) 0 1) =
          .ok (frames, total) →
        (∀ e, topPointer frames = .error e →
          come (through env answers found) (handleDisassemble args) = .error e) ∧
        ∀ ip, topPointer frames = .ok ip → ∀ insts : List Instruction,
          d (.disassemble (normalizeHex ip) (instructionCount args)) = .ok insts →
            ∃ fields, come (through env answers found) (handleDisassemble args) = .ok fields ∧
              Listed insts (normalizeHex ip) (normalizeHex ip) fields) := by
  rw [through_eq standard serves]
  constructor
  · intro given insts answered
    have full : (args.getString "address" "").isEmpty = false := by
      rw [Bool.eq_false_iff, Ne, String.isEmpty_iff]
      exact given
    have start : come (against env.isLldbDap d stderr found)
        (startPointer (args.getString "address" "")) = .ok "" := by
      rw [startPointer, full]
      rfl
    refine come_disassembled ready.checked ready.connected start ?_ rfl (result_ok answered)
    rw [full]
    rfl
  · intro given frames total traced
    have empty : (args.getString "address" "").isEmpty = true := String.isEmpty_iff.mpr given
    have start : come (against env.isLldbDap d stderr found)
        (startPointer (args.getString "address" "")) = topPointer frames := by
      rw [startPointer, if_pos empty]
      exact come_currentPointer (result_ok traced)
    refine ⟨fun e none => ?_, fun ip top insts answered => ?_⟩
    · rw [come_handleDisassemble ready.checked ready.connected, start, none]
      rfl
    · refine come_disassembled ready.checked ready.connected (start.trans top) ?_ ?_
        (result_ok answered)
      · rw [if_pos empty]
      · rw [if_neg fun none => topPointer_nonempty top (String.isEmpty_iff.mp none)]

/-- Two threads, of which one stands at a pointer that is written without its prefix. -/
def twoThreads : Debuggee
  | .threads => .ok [⟨1, "main"⟩, ⟨7, "worker"⟩]
  | .stackTrace .. => .ok ([⟨0, 42, "work", none, 0, some "1001"⟩], 1)
  | .disassemble .. =>
    .ok [⟨"0x1001", "nop", "90", "", none, 0⟩, ⟨"0x1002", "ret", "c3", "", none, 0⟩]
  | _ => .error ""

theorem fits_twoThreads (q : Query) (answer : q.Answer) (answered : twoThreads q = .ok answer) :
    Fits q answer := by
  cases q with
  | threads =>
    cases answered
    change ∀ t ∈ [ThreadInfo.mk 1 "main", ⟨7, "worker"⟩], Core.Decode.InI64 t.id
    decide
  | stackTrace threadId start levels =>
    cases answered
    refine ⟨by decide, fun i f here => ?_⟩
    cases i with
    | zero =>
      cases here
      decide
    | succ i => cases here
  | disassemble address count =>
    cases answered
    change ∀ i ∈ [Instruction.mk "0x1001" "nop" "90" "" none 0,
      ⟨"0x1002", "ret", "c3", "", none, 0⟩], Core.Decode.InI64 i.line ∧ i.sourcePath ≠ some ""
    decide
  | _ => cases answered

theorem listing_shown_current : ∃ fields,
    come (through (reference true) (adapter twoThreads "") atStop) (handleDisassemble ⟨∅⟩) =
      .ok fields ∧
    Listed [⟨"0x1001", "nop", "90", "", none, 0⟩, ⟨"0x1002", "ret", "c3", "", none, 0⟩]
      "0x1001" "0x1001" fields :=
  ((listing_shown (standard_reference true) (serves_adapter fits_twoThreads "") ⟨rfl, rfl⟩).2
    rfl _ _ rfl).2 "1001" rfl _ rfl

theorem stoppedThreadId_eq_some {last : Option Int} {items : List ThreadInfo} {id : Int} :
    stoppedThreadId last items = some id ↔ last = some id ∧ ∃ th ∈ items, th.id = id := by
  have from_ : ∀ found, items.foldl
      (fun found th => if some th.id = last then some th.id else found) found = some id ↔
        (last = some id ∧ ∃ th ∈ items, th.id = id) ∨
          (found = some id ∧ ∀ th ∈ items, some th.id ≠ last) := by
    induction items with
    | nil => simp
    | cons th items ih =>
      intro found
      rw [List.foldl_cons, ih, List.exists_mem_cons_iff, List.forall_mem_cons]
      by_cases here : some th.id = last
      · subst here
        rw [if_pos rfl]
        constructor
        · rintro (⟨same, later⟩ | ⟨same, -⟩)
          · exact .inl ⟨same, .inr later⟩
          · exact .inl ⟨same, .inl (Option.some.inj same)⟩
        · rintro (⟨same, -⟩ | ⟨-, other, -⟩)
          · by_cases later : ∃ th ∈ items, th.id = id
            · exact .inl ⟨same, later⟩
            · exact .inr ⟨same, fun th' mem eq =>
                later ⟨th', mem, (Option.some.inj eq).trans (Option.some.inj same)⟩⟩
          · exact absurd rfl other
      · rw [if_neg here]
        constructor
        · rintro (⟨same, later⟩ | ⟨same, none⟩)
          · exact .inl ⟨same, .inr later⟩
          · exact .inr ⟨same, here, none⟩
        · rintro (⟨same, first | later⟩ | ⟨same, -, none⟩)
          · exact absurd ((congrArg some first).trans same.symm) here
          · exact .inl ⟨same, later⟩
          · exact .inr ⟨same, none⟩
  simpa [stoppedThreadId] using from_ none

/-- The response that lists the threads. -/
def threadFields (last : Option Int) (items : List ThreadInfo) : Fields :=
  [("threads", .array (items.map (threadItem last))), ("count", .int items.length)] ++
    (stoppedThreadId last items).elim [] fun id => [("stopped_thread_id", .int id)]

theorem lookup_threadFields (last : Option Int) (items : List ThreadInfo) (id : Int) :
    (threadFields last items).lookup "stopped_thread_id" = some (.int id) ↔
      stoppedThreadId last items = some id := by
  change ((stoppedThreadId last items).elim [] fun id =>
    [("stopped_thread_id", Value.int id)]).lookup "stopped_thread_id" = _ ↔ _
  cases stoppedThreadId last items with
  | none => exact ⟨nofun, nofun⟩
  | some other =>
    change some (Value.int other) = some (.int id) ↔ _
    simp only [Option.some.injEq, Value.int.injEq]

theorem come_handleThreads {seen : (a : Access) → a.Result} {items : List ThreadInfo}
    (stopped : seen (.checkState [.stopped]) = .ok ()) (connected : seen .currentBackend = true)
    (answered : seen .threads = .ok items) : come seen handleThreads =
      .ok (threadFields ((seen .lastStopped).map StopInfo.threadId) items) := by
  simp only [handleThreads, come_bind, come_checkStopped, stopped, come_currentBackend, connected,
    come_threads, come_rendered, Except.bind, if_true]
  rw [answered]
  rfl

/-- Both marks stand at the thread that was stopped last. -/
theorem marks_threadItem (last : Option Int) (th : ThreadInfo) {key : String}
    (mark : key = "is_stopped" ∨ key = "is_current") :
    itemField key (threadItem last th) = some (.bool true) ↔ last = some th.id := by
  by_cases here : some th.id = last
  · rw [threadItem, if_pos here]
    rcases mark with rfl | rfl <;> exact ⟨fun _ => here.symm, fun _ => rfl⟩
  · rw [threadItem, if_neg here]
    rcases mark with rfl | rfl <;> exact ⟨nofun, fun same => absurd same.symm here⟩

/-- What `threads` shows, over any adapter that answers for the debuggee: every thread, marked if
it is the one that was stopped last. -/
theorem threads_shown (standard : Env.Standard env) (serves : Serves answers d stderr)
    (ready : found.Ready) {items : List ThreadInfo} (answered : d .threads = .ok items) :
    ∃ fields, come (through env answers found) handleThreads = .ok fields ∧
      fields.lookup "count" = some (.int items.length) ∧
      (∃ shown, fields.lookup "threads" = some (.array shown) ∧ shown.length = items.length ∧
        ∀ (i : Nat) (item : Value) (th : ThreadInfo), shown[i]? = some item → items[i]? = some th →
          itemField "id" item = some (.int th.id) ∧
          itemField "name" item = some (.string th.name) ∧
          (itemField "is_stopped" item = some (.bool true) ↔
            found.lastStopped.map StopInfo.threadId = some th.id) ∧
          (itemField "is_current" item = some (.bool true) ↔
            found.lastStopped.map StopInfo.threadId = some th.id)) ∧
      ∀ id, fields.lookup "stopped_thread_id" = some (.int id) ↔
        found.lastStopped.map StopInfo.threadId = some id ∧ ∃ th ∈ items, th.id = id := by
  rw [through_eq standard serves]
  refine ⟨_, come_handleThreads ready.checked ready.connected (result_ok answered), rfl,
    ⟨_, rfl, List.length_map .., fun i item th here there => ?_⟩, fun id => ?_⟩
  · rw [List.getElem?_map, there] at here
    obtain rfl := Option.some.inj here
    exact ⟨rfl, rfl, marks_threadItem _ th (.inl rfl), marks_threadItem _ th (.inr rfl)⟩
  · exact (lookup_threadFields _ items id).trans stoppedThreadId_eq_some

theorem threads_shown_stopped : ∃ fields,
    come (through (reference true) (adapter twoThreads "") atStop) handleThreads = .ok fields ∧
    fields.lookup "stopped_thread_id" = some (.int 7) := by
  obtain ⟨fields, shown, -, -, stopped⟩ := threads_shown (standard_reference true)
    (serves_adapter fits_twoThreads "") (⟨rfl, rfl⟩ : atStop.Ready) rfl
  exact ⟨fields, shown, (stopped 7).mpr ⟨rfl, ⟨7, "worker"⟩, by decide, rfl⟩⟩

end

end LldbDebugMcp.Server.Memory
