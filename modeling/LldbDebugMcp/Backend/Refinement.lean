/- module: LldbDebugMcp/Backend/Refinement
   source: crates/lldb-backend/src/{backend,body,requests}.rs
   digest: Asking through the backend is asking the debuggee. -/

import LldbDebugMcp.Backend.Answers
import LldbDebugMcp.Backend.Queries

set_option autoImplicit false
set_option relaxedAutoImplicit false

namespace LldbDebugMcp.Backend.Refinement

open LldbDebugMcp.Core.Types
open LldbDebugMcp.Core.Decode
open LldbDebugMcp.Client.Message
open LldbDebugMcp.Library
open LldbDebugMcp.Library.Effect
open LldbDebugMcp.Backend
open LldbDebugMcp.Backend.Answers
open LldbDebugMcp.Backend.Operations
open LldbDebugMcp.Backend.Queries

/-- The one-shot operations of the backend. -/
inductive Ask where
  | setSourceBreakpoints (file : String) (bps : List SourceBp)
  | setFunctionBreakpoints (bps : List FunctionBp)
  | threads
  | stackTrace (threadId start levels : Int)
  | scopes (frameId : Int)
  | variableList (variablesReference : Int)
  | evaluate (expr : String) (frameId : Option Int) (mode : EvalMode)
  | readMemory (address : String) (count : Int)
  | disassemble (address : String) (count : Int)

namespace Ask

/-- What the debuggee is asked. A command is asked of no frame, and in the spelling that the
debugger takes it in. -/
def query (isLldbDap : Bool) : Ask → Query
  | .setSourceBreakpoints file bps => .setBreakpoints file bps
  | .setFunctionBreakpoints bps => .setFunctionBreakpoints bps
  | .threads => .threads
  | .stackTrace threadId start levels => .stackTrace threadId start levels
  | .scopes frameId => .scopes frameId
  | .variableList reference => .variableList reference
  | .evaluate expr frameId .expression => .evaluate expr frameId "variables"
  | .evaluate expr _ .repl => .evaluate (if isLldbDap then expr else "`" ++ expr) none "repl"
  | .readMemory address count => .readMemory address count
  | .disassemble address count => .disassemble address count

def program (env : Env) : (a : Ask) → Checked (a.query env.isLldbDap).Answer
  | .setSourceBreakpoints file bps => Queries.setSourceBreakpoints env file bps
  | .setFunctionBreakpoints bps => Queries.setFunctionBreakpoints env bps
  | .threads => Queries.threads env
  | .stackTrace threadId start levels => Queries.stackTrace env threadId start levels
  | .scopes frameId => Queries.scopes env frameId
  | .variableList reference => Queries.variableList env reference
  | .evaluate expr frameId .expression => Queries.evaluate env expr frameId .expression
  | .evaluate expr frameId .repl => Queries.evaluate env expr frameId .repl
  | .readMemory address count => Queries.readMemory env address count
  | .disassemble address count => Queries.disassemble env address count

end Ask

/-! The wire. -/

/-- The base64 crate decodes the canonical encodings, and nothing else. -/
def Env.Standard (env : Env) : Prop :=
  ∀ data bytes, env.base64 data = .ok bytes ↔ data = String.ofList (Base64.encode bytes)

/-- A missing body stands for an empty object. -/
def InBody (shown : Shown) (body : Option Value) : Prop := shown (body.getD (.object []))

theorem decode_ok_iff {α : Type} {describe : Value → String} {d : Decoder α} {shown : α → Shown}
    (exact : Exact d shown) {body : Option Value} {a : α} :
    Body.decode describe d body = .ok a ↔ InBody (shown a) body := by
  simp only [Body.decode, InBody]
  rw [← exact]
  cases d (body.getD (.object [])) <;> simp

theorem map_ok_iff {α β ε : Type} {f : α → β} {x : Except ε α} {b : β} :
    x.map f = .ok b ↔ ∃ a, x = .ok a ∧ f a = b := by
  cases x <;> simp [Except.map]

theorem memoryData_ok_iff {env : Env} (standard : Env.Standard env) {data : String}
    {bytes : List UInt8} :
    Body.memoryData env.base64 data = .ok bytes ↔ data = String.ofList (Base64.encode bytes) := by
  unfold Body.memoryData
  by_cases empty : data.isEmpty = true
  · rw [if_pos empty, String.isEmpty_iff.mp empty]
    constructor
    · intro none_read
      obtain rfl := Except.ok.inj none_read
      rfl
    · intro encoded
      have read : Base64.decode (Base64.encode bytes) = some bytes := Base64.decode_encode bytes
      have chars : Base64.encode bytes = [] := by
        rw [← String.toList_ofList (l := Base64.encode bytes), ← encoded]
        rfl
      rw [chars] at read
      exact congrArg Except.ok (Option.some.inj read)
  · rw [if_neg empty, ← standard data bytes]
    cases env.base64 data <;> simp [Except.mapError]

theorem bind_ok_iff {α β ε : Type} {x : Except ε α} {f : α → Except ε β} {b : β} :
    (x >>= f) = .ok b ↔ ∃ a, x = .ok a ∧ f a = .ok b := by
  cases x <;> simp [bind, Except.bind]

theorem readMemory_ok_iff {env : Env} (standard : Env.Standard env) {body : Option Value}
    {m : MemoryRead} :
    Body.readMemory env.describe env.base64 body = .ok m ↔
      InBody (Body.showMemory (m.address, String.ofList (Base64.encode m.data))) body := by
  obtain ⟨address, bytes⟩ := m
  simp only [Body.readMemory, bind_ok_iff, decode_ok_iff Body.exact_readMemoryBody,
    memoryData_ok_iff standard, pure, Except.pure, Except.ok.injEq, MemoryRead.mk.injEq]
  constructor
  · rintro ⟨⟨_, _⟩, shown, _, rfl, rfl, rfl⟩
    exact shown
  · intro shown
    exact ⟨_, shown, _, rfl, rfl, rfl⟩

namespace Ask

variable (env : Env)

/-- The request of an operation. -/
def request : Ask → Request
  | .setSourceBreakpoints file bps => Requests.setBreakpoints file bps
  | .setFunctionBreakpoints bps => Requests.setFunctionBreakpoints bps
  | .threads => Requests.threads
  | .stackTrace threadId start levels => Requests.stackTrace threadId start levels
  | .scopes frameId => Requests.scopes frameId
  | .variableList reference => Requests.variableList reference
  | .evaluate expr frameId .expression => Requests.evaluate expr frameId "variables"
  | .evaluate expr _ .repl =>
    Requests.evaluate (if env.isLldbDap then expr else "`" ++ expr) none "repl"
  | .readMemory address count => Requests.readMemory address count
  | .disassemble address count => Requests.disassemble address count

/-- How the body of the response is read. -/
def body : (a : Ask) → Option Value → Except BackendError (a.query env.isLldbDap).Answer
  | .setSourceBreakpoints .. | .setFunctionBreakpoints _ => Body.breakpoints env.describe
  | .threads => Body.threads env.describe
  | .stackTrace .. => Body.stackTrace env.describe
  | .scopes _ => Body.scopes env.describe
  | .variableList _ => Body.variableList env.describe
  | .evaluate _ _ .expression | .evaluate _ _ .repl => Body.evaluate env.describe
  | .readMemory .. => Body.readMemory env.describe env.base64
  | .disassemble .. => Body.disassemble env.describe

theorem program_eq (a : Ask) :
    a.program env =
      Queries.query (a.query env.isLldbDap).command (a.request env) (a.body env) := by
  cases a with
  | evaluate expr frameId mode => cases mode <;> rfl
  | _ => rfl

/-- The answer of an operation is read from the bodies that present it, and from no others. -/
theorem body_ok_iff {env : Env} (standard : Env.Standard env) (a : Ask) {body : Option Value}
    {answer : (a.query env.isLldbDap).Answer} :
    a.body env body = .ok answer ↔
      InBody ((a.query env.isLldbDap).Shows answer) body := by
  cases a with
  | setSourceBreakpoints | setFunctionBreakpoints =>
    exact decode_ok_iff (Body.exact_listBody Body.exact_dapBreakpoint)
  | threads => exact decode_ok_iff (Body.exact_listBody Body.exact_dapThread)
  | stackTrace threadId start levels =>
    obtain ⟨frames, total⟩ := answer
    refine map_ok_iff.trans ⟨?_, ?_⟩
    · rintro ⟨⟨raw, total⟩, decoded, eq⟩
      cases eq
      exact ⟨raw, (decode_ok_iff Body.exact_stackTraceBody).mp decoded, rfl⟩
    · rintro ⟨raw, shown, rfl⟩
      exact ⟨(raw, total), (decode_ok_iff Body.exact_stackTraceBody).mpr shown, rfl⟩
  | scopes frameId => exact decode_ok_iff (Body.exact_listBody Body.exact_dapScope)
  | variableList reference => exact decode_ok_iff (Body.exact_listBody Body.exact_dapVariable)
  | evaluate expr frameId mode => cases mode <;> exact decode_ok_iff Body.exact_evaluateBody
  | readMemory address count => exact readMemory_ok_iff standard
  | disassemble address count =>
    refine map_ok_iff.trans ⟨?_, ?_⟩
    · rintro ⟨raw, decoded, rfl⟩
      exact ⟨raw, (decode_ok_iff (Body.exact_listBody Body.exact_dapInstruction)).mp decoded, rfl⟩
    · rintro ⟨raw, shown, rfl⟩
      exact ⟨raw, (decode_ok_iff (Body.exact_listBody Body.exact_dapInstruction)).mpr shown, rfl⟩

/-- A breakpoint reads as it was written, with its condition or without one. -/
theorem entry_breakpointValue {α β : Type} {key : String} (d : Decoder α) (make : α → String → β)
    {value : Value} {x : α} (reads : d value = some x) (other : key ≠ "condition")
    (condition : String) :
    entry key d make (Requests.breakpointValue key value condition) = some (make x condition) := by
  have first : ∀ rest : List (String × Value), ((key, value) :: rest).lookup key = some value :=
    fun rest => by rw [List.lookup_cons, beq_self_eq_true]
  have others : ∀ rest : List (String × Value), ((key, value) :: rest).lookup "condition" =
      rest.lookup "condition" := fun rest => by
    rw [List.lookup_cons, beq_eq_false_iff_ne.mpr other.symm]
  by_cases empty : condition.isEmpty = true
  · obtain rfl := String.isEmpty_iff.mp empty
    simp [entry, Requests.breakpointValue, Requests.field, first, others, reads, withDefault]
  · have present : Requests.field (!condition.isEmpty) "condition" (.string condition) =
        [("condition", .string condition)] := by
      simp only [Requests.field, empty, Bool.not_false, if_true]
    simp only [entry, Requests.breakpointValue, present, List.singleton_append, first, others,
      Option.bind_eq_bind, Option.bind_some, reads]
    rfl

theorem vec_map {α : Type} {d : Decoder α} {enc : α → Value} (reads : ∀ x, d (enc x) = some x)
    (xs : List α) : vec d (.array (xs.map enc)) = some xs := by
  refine mapM_eq_some.mpr ?_
  rw [List.forall₂_map_left_iff]
  exact List.forall₂_same.mpr fun x _ => reads x

/-- An adapter reads from the request of an operation what the debuggee is to be asked. -/
theorem asked_request (a : Ask) : asked (a.request env) = some (a.query env.isLldbDap) := by
  cases a with
  | setSourceBreakpoints file bps =>
    have reads (b : SourceBp) : entry "line" number SourceBp.mk
        (Requests.breakpointValue "line" (.int b.line) b.condition) = some b :=
      entry_breakpointValue number SourceBp.mk rfl (by decide) b.condition
    have file_read : argument (Requests.setBreakpoints file bps) "source" sourcePath =
        some file := rfl
    have bps_read : argument (Requests.setBreakpoints file bps) "breakpoints"
        (vec (entry "line" number SourceBp.mk)) = some bps := vec_map reads bps
    change (argument (Requests.setBreakpoints file bps) "source" sourcePath).bind (fun file =>
      (argument (Requests.setBreakpoints file bps) "breakpoints"
        (vec (entry "line" number SourceBp.mk))).bind fun bps =>
          some (Query.setBreakpoints file bps)) = _
    rw [file_read, Option.bind_some, bps_read]
    rfl
  | setFunctionBreakpoints bps =>
    have reads (b : FunctionBp) : entry "name" text FunctionBp.mk
        (Requests.breakpointValue "name" (.string b.name) b.condition) = some b :=
      entry_breakpointValue text FunctionBp.mk rfl (by decide) b.condition
    have bps_read : argument (Requests.setFunctionBreakpoints bps) "breakpoints"
        (vec (entry "name" text FunctionBp.mk)) = some bps := vec_map reads bps
    change ((argument (Requests.setFunctionBreakpoints bps) "breakpoints"
      (vec (entry "name" text FunctionBp.mk))).bind fun bps =>
        some (Query.setFunctionBreakpoints bps)) = _
    rw [bps_read]
    rfl
  | evaluate expr frameId mode =>
    cases mode with
    | expression => cases frameId <;> rfl
    | repl => rfl
  | _ => rfl

end Ask

/-- What a one-shot operation comes to, by what its request comes to. -/
theorem eval_query {α : Type} (op : String) (request : Request)
    (body : Option Value → Except BackendError α) (answer : (i : Op) → i.Result) :
    (query op request body).run.eval answer =
      match answer (.send request) with
      | .ok (.response response) =>
        if response.success then body response.body
        else .error (.dap (op ++ " failed: " ++ (diagnostic response.message).eval answer))
      | .ok other => .error (.protocol (op ++ ":" ++ messageTypeLabel other))
      | .error e => .error (.dap (op ++ " request failed" ++ ": " ++ e.display)) := by
  change ((sendChecked op request).run.bind _).eval answer = _
  rw [Program.eval_bind, eval_sendChecked]
  cases answer (.send request) with
  | error e => rfl
  | ok message =>
    cases message with
    | event | other => rfl
    | response response =>
      cases success : response.success with
      | true =>
        simp only [checkResponse, success, if_true]
        rfl
      | false =>
        simp only []
        rw [eval_checkResponse success, success]
        rfl

/-- An environment whose base64 is the library's. -/
def reference (isLldbDap : Bool) : Queries.Env where
  describe := fun _ => "invalid type"
  base64 data :=
    match Base64.decode data.toList with
    | some bytes => .ok bytes
    | none => .error "Invalid padding"
  isLldbDap := isLldbDap

theorem standard_reference (isLldbDap : Bool) : Env.Standard (reference isLldbDap) := by
  intro data bytes
  have known : Base64.decode data.toList = some bytes ↔ data.toList = Base64.encode bytes :=
    Base64.decode_eq_some
  have chars : data.toList = Base64.encode bytes ↔ data = String.ofList (Base64.encode bytes) := by
    constructor
    · intro eq
      rw [← eq, String.ofList_toList]
    · rintro rfl
      exact String.toList_ofList
  rw [← chars, ← known]
  cases h : Base64.decode data.toList <;> simp [reference, h]

/-- A reply with success is taken for an answer exactly when its body presents that answer. -/
theorem accepts_iff {env : Env} (standard : Env.Standard env) (a : Ask)
    {answers : (i : Op) → i.Result} {response : Response}
    (replied : answers (.send (a.request env)) = .ok (.response response))
    (success : response.success = true) (answer : (a.query env.isLldbDap).Answer) :
    (a.program env).run.eval answers = .ok answer ↔
      InBody ((a.query env.isLldbDap).Shows answer) response.body := by
  rw [a.program_eq, eval_query, replied]
  simp only [success, if_true]
  exact a.body_ok_iff standard

/-- An adapter with one reply to whatever it is sent. -/
def replying (response : Response) : (i : Op) → i.Result
  | .send _ => .ok (.response response)
  | .sendAsync _ => .ok ()
  | .waitInitialized | .register | .startKill | .waitChild => ()
  | .recvReply | .recvStop => none
  | .stderr => ""
  | .takeChild => false

/-- A body of `threads` with a field that no decoder knows, and without the name of a thread. -/
def looseThreads : Value :=
  .object [("more", .null), ("threads", .array
    [.object [("name", .string "main"), ("id", .int 1)], .object [("id", .int 2)]])]

theorem accepts_iff_threads :
    (Ask.threads.program (reference true)).run.eval
        (replying ⟨7, "response", 4, true, "threads", "", some looseThreads⟩) =
      .ok [⟨1, "main"⟩, ⟨2, ""⟩] := by
  have first : Body.showThread ⟨1, "main"⟩ (.object [("name", .string "main"), ("id", .int 1)]) :=
    ⟨_, rfl, fields_cons.mpr ⟨⟨rfl, by decide⟩, fields_cons.mpr ⟨rfl, nofun⟩⟩⟩
  have second : Body.showThread ⟨2, ""⟩ (.object [("id", .int 2)]) :=
    ⟨_, rfl, fields_cons.mpr ⟨⟨rfl, by decide⟩, fields_cons.mpr ⟨rfl, nofun⟩⟩⟩
  exact (@accepts_iff _ (standard_reference true) .threads (replying _) _ rfl rfl _).mpr
    ⟨_, rfl, fields_cons.mpr ⟨⟨_, rfl, .cons first (.cons second .nil)⟩, nofun⟩⟩

/-- The text under which a refusal of the debuggee is reported: its message, else what the process
has written to its stderr, else a literal. -/
def reason (stderr message : String) : String :=
  if message ≠ "" then message
  else if stderr ≠ "" then stderr
  else "no error message provided by lldb-dap"

/-- What the operation is to come to. -/
def result (d : Debuggee) (stderr : String) (q : Query) : Except BackendError q.Answer :=
  match d q with
  | .ok answer => .ok answer
  | .error message => .error (.dap (q.command ++ " failed: " ++ reason stderr message))

/-- A response that answers for the debuggee: its body presents the answer, in whichever form, or
it tells of the refusal. -/
def Answers (d : Debuggee) (q : Query) (response : Response) : Prop :=
  match d q with
  | .ok answer => response.success = true ∧ InBody (q.Shows answer) response.body
  | .error message => response.success = false ∧ response.message = message

/-- An adapter that answers for the debuggee: it replies so to each request that it understands. -/
structure Serves (answers : (i : Op) → i.Result) (d : Debuggee) (stderr : String) : Prop where
  stderr : answers .stderr = stderr
  serves : ∀ request q, asked request = some q → ∃ response,
    answers (.send request) = .ok (.response response) ∧ Answers d q response

theorem eval_diagnostic (message : String) (answers : (i : Op) → i.Result) :
    (diagnostic message).eval answers = reason (answers .stderr) message := by
  unfold diagnostic reason
  by_cases empty : message = ""
  · subst empty
    simp only [ne_eq, not_true_eq_false, if_false]
    change (Program.bind (perform .stderr) _).eval answers = _
    rw [Program.eval_bind]
    change (if answers .stderr ≠ "" then _ else _ : Dap String).eval answers = _
    by_cases silent : answers .stderr = ""
    · simp only [silent, ne_eq, not_true_eq_false, if_false]
      rfl
    · simp only [silent, ne_eq, not_false_eq_true, if_true]
      rfl
  · simp only [empty, ne_eq, not_false_eq_true, if_true]
    rfl

/-- The response of the adapter to a request. -/
def reply (d : Debuggee) (request : Request) : Response :=
  match asked request with
  | none => ⟨0, "response", request.seq, false, request.command, "unknown request", none⟩
  | some q =>
    match d q with
    | .ok answer => ⟨0, "response", request.seq, true, request.command, "", some (encode q answer)⟩
    | .error message => ⟨0, "response", request.seq, false, request.command, message, none⟩

/-- An adapter that does nothing but answer requests. -/
def adapter (d : Debuggee) (stderr : String) : (i : Op) → i.Result
  | .send request => .ok (.response (reply d request))
  | .sendAsync _ => .ok ()
  | .waitInitialized | .register | .startKill | .waitChild => ()
  | .recvReply | .recvStop => none
  | .stderr => stderr
  | .takeChild => false

theorem answers_reply {d : Debuggee} {request : Request} {q : Query}
    (understood : asked request = some q) (fits : ∀ answer, d q = .ok answer → Fits q answer) :
    Answers d q (reply d request) := by
  unfold Answers
  simp only [reply, understood]
  cases answered : d q with
  | ok answer => exact ⟨rfl, shows_encode q answer (fits answer answered)⟩
  | error message => exact ⟨rfl, rfl⟩

theorem serves_adapter {d : Debuggee} (fits : ∀ q answer, d q = .ok answer → Fits q answer)
    (stderr : String) : Serves (adapter d stderr) d stderr where
  stderr := rfl
  serves request q understood := ⟨reply d request, rfl, answers_reply understood (fits q)⟩

/-- What an operation comes to when its request is answered for the debuggee. -/
theorem eval_answered {env : Env} (standard : Env.Standard env) {answers : (i : Op) → i.Result}
    {d : Debuggee} {stderr : String} {response : Response} (a : Ask)
    (quiet : answers .stderr = stderr)
    (replied : answers (.send (a.request env)) = .ok (.response response))
    (told : Answers d (a.query env.isLldbDap) response) :
    (a.program env).run.eval answers = result d stderr (a.query env.isLldbDap) := by
  unfold Answers at told
  unfold result
  cases answered : d (a.query env.isLldbDap) with
  | ok answer =>
    simp only [answered] at told
    rw [a.program_eq, eval_query, replied]
    simp only [told.1, if_true]
    exact (a.body_ok_iff standard).mpr told.2
  | error message =>
    simp only [answered] at told
    rw [a.program_eq, eval_query, replied]
    simp only [told.1, Bool.false_eq_true, if_false, told.2, eval_diagnostic, quiet]

/-- Asking through the backend is asking the debuggee: over any adapter that answers for it, every
one-shot operation comes to what the debuggee answers to the query. -/
theorem refines {env : Env} (standard : Env.Standard env) {answers : (i : Op) → i.Result}
    {d : Debuggee} {stderr : String} (serves : Serves answers d stderr) (a : Ask) :
    (a.program env).run.eval answers = result d stderr (a.query env.isLldbDap) := by
  obtain ⟨response, replied, told⟩ := serves.serves _ _ (a.asked_request env)
  exact eval_answered standard a serves.stderr replied told

/-- A debuggee that gives its memory and nothing else. -/
def memoryOnly : Debuggee
  | .readMemory address _ => .ok ⟨address, [0x48, 0x89, 0xe5, 0x00]⟩
  | _ => .error ""

theorem refines_memory :
    (Ask.program (reference false) (.readMemory "0x1000" 4)).run.eval (adapter memoryOnly "gone") =
        .ok ⟨"0x1000", [0x48, 0x89, 0xe5, 0x00]⟩ ∧
      (Ask.program (reference false) (.evaluate "bt" (some 3) .repl)).run.eval
          (adapter memoryOnly "gone") = .error (.dap "evaluate failed: gone") := by
  have serves : Serves (adapter memoryOnly "gone") memoryOnly "gone" :=
    serves_adapter (fun q answer answered => by
      cases q with
      | readMemory => trivial
      | _ => cases answered) "gone"
  exact ⟨refines (standard_reference false) serves (.readMemory "0x1000" 4),
    refines (standard_reference false) serves (.evaluate "bt" (some 3) .repl)⟩

end LldbDebugMcp.Backend.Refinement
