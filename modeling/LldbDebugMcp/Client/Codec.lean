/- module: LldbDebugMcp/Client/Codec
   source: crates/dap-client/src/wire.rs (the derived Serialize and Deserialize)
   digest: The messages as JSON values: how they are written, and which values are read as them. -/

import LldbDebugMcp.Core.Decode
import LldbDebugMcp.Client.Wire

set_option autoImplicit false
set_option relaxedAutoImplicit false

namespace LldbDebugMcp.Client.Codec

open LldbDebugMcp.Core.Types
open LldbDebugMcp.Core.Decode
open LldbDebugMcp.Client.Message
open LldbDebugMcp.Client.Wire

/-! The derived decoders. -/

def envelope : Decoder Envelope := fun v => do
  let get ← textSlots ["seq", "type", "command", "event"] v
  let seq ← required i64 (get 0 "seq")
  let ty ← required text (get 1 "type")
  let command ← withDefault (option text) none (get 2 "command")
  let event ← withDefault (option text) none (get 3 "event")
  return ⟨seq, ty, command, event⟩

def response : Decoder Response := fun v => do
  let get ← textSlots ["seq", "type", "request_seq", "success", "command", "message", "body"] v
  let seq ← required i64 (get 0 "seq")
  let ty ← required text (get 1 "type")
  let requestSeq ← required i64 (get 2 "request_seq")
  let success ← required flag (get 3 "success")
  let command ← required text (get 4 "command")
  let message ← withDefault text "" (get 5 "message")
  let body ← withDefault (option raw) none (get 6 "body")
  return ⟨seq, ty, requestSeq, success, command, message, body⟩

def stoppedBody : Decoder StoppedBody := fun v => do
  let get ← textSlots
    ["reason", "description", "threadId", "text", "allThreadsStopped", "hitBreakpointIds"] v
  let reason ← withDefault text "" (get 0 "reason")
  let description ← withDefault text "" (get 1 "description")
  let threadId ← withDefault i64 0 (get 2 "threadId")
  let words ← withDefault text "" (get 3 "text")
  let allThreadsStopped ← withDefault flag false (get 4 "allThreadsStopped")
  let hitBreakpointIds ← withDefault (vec i64) [] (get 5 "hitBreakpointIds")
  return ⟨reason, description, threadId, words, allThreadsStopped, hitBreakpointIds⟩

def outputBody : Decoder OutputBody := fun v => do
  let get ← textSlots ["category", "output"] v
  let category ← withDefault text "" (get 0 "category")
  let output ← withDefault text "" (get 1 "output")
  return ⟨category, output⟩

def exitedBody : Decoder ExitedBody := fun v => do
  let get ← textSlots ["exitCode"] v
  let exitCode ← withDefault i64 0 (get 0 "exitCode")
  return ⟨exitCode⟩

/-- `StoppedEvent`, `OutputEvent` and `ExitedEvent`, of which only the body is used. -/
def eventWith {α : Type} (body : Decoder α) : Decoder α := fun v => do
  let get ← textSlots ["seq", "type", "event", "body"] v
  let _ ← required i64 (get 0 "seq")
  let _ ← required text (get 1 "type")
  let _ ← required text (get 2 "event")
  required body (get 3 "body")

def request : Decoder Request := fun v => do
  let get ← textSlots ["seq", "type", "command", "arguments"] v
  let seq ← required i64 (get 0 "seq")
  let ty ← required text (get 1 "type")
  let command ← required text (get 2 "command")
  let arguments ← withDefault (option raw) none (get 3 "arguments")
  return ⟨seq, ty, command, arguments⟩

/-- `serde_json::from_slice` at each type, over a parser of JSON texts. -/
def serde (parse : Bytes → Option Value) : Serde where
  envelope bytes := (parse bytes).bind envelope
  response bytes := (parse bytes).bind response
  stopped bytes := (parse bytes).bind (eventWith stoppedBody)
  output bytes := (parse bytes).bind (eventWith outputBody)
  exited bytes := (parse bytes).bind (eventWith exitedBody)

/-! Which values present what is decoded. -/

def showEnvelope (e : Envelope) : Shown :=
  recordOnce [must "seq" (int e.seq), must "type" (string e.ty),
    may "command" (optional string e.command) (e.command = none),
    may "event" (optional string e.event) (e.event = none)]

/-- A raw value that may be missing; it is missing where null is given. -/
def showRaw (o : Option Value) : Shown := optional (fun a v => v = a) o

def showResponse (r : Response) : Shown :=
  recordOnce [must "seq" (int r.seq), must "type" (string r.ty),
    must "request_seq" (int r.requestSeq), must "success" (bool r.success),
    must "command" (string r.command), may "message" (string r.message) (r.message = ""),
    may "body" (showRaw r.body) (r.body = none)]

def showStopped (b : StoppedBody) : Shown :=
  recordOnce [may "reason" (string b.reason) (b.reason = ""),
    may "description" (string b.description) (b.description = ""),
    may "threadId" (int b.threadId) (b.threadId = 0), may "text" (string b.text) (b.text = ""),
    may "allThreadsStopped" (bool b.allThreadsStopped) (b.allThreadsStopped = false),
    may "hitBreakpointIds" (list (b.hitBreakpointIds.map int)) (b.hitBreakpointIds = [])]

def showOutput (b : OutputBody) : Shown :=
  recordOnce [may "category" (string b.category) (b.category = ""),
    may "output" (string b.output) (b.output = "")]

def showExited (b : ExitedBody) : Shown :=
  recordOnce [may "exitCode" (int b.exitCode) (b.exitCode = 0)]

/-- Whatever presents some datum. -/
def some_ {α : Type} (shown : α → Shown) : Shown := fun v => ∃ a, shown a v

def showEvent {α : Type} (body : α → Shown) (b : α) : Shown :=
  recordOnce [must "seq" (some_ int), must "type" (some_ string), must "event" (some_ string),
    must "body" (body b)]

def showRequest (r : Request) : Shown :=
  recordOnce [must "seq" (int r.seq), must "type" (string r.ty), must "command" (string r.command),
    may "arguments" (showRaw r.arguments) (r.arguments = none)]

theorem exact_envelope : Exact envelope showEnvelope := by
  rintro v ⟨seq, ty, command, event⟩
  simp [envelope, showEnvelope, recordOnce, record, Option.bind_eq_some_iff, textSlots_eq_some,
    required_iff exact_i64, required_iff exact_text, withDefault_iff (exact_option exact_text),
    fields_cons, and_assoc]

theorem exact_response : Exact response showResponse := by
  rintro v ⟨seq, ty, requestSeq, success, command, message, body⟩
  simp [response, showResponse, showRaw, recordOnce, record, Option.bind_eq_some_iff,
    textSlots_eq_some, required_iff exact_i64, required_iff exact_text, required_iff exact_flag,
    withDefault_iff exact_text, withDefault_iff (exact_option exact_raw), fields_cons,
    and_assoc, -Bool.exists_bool]

theorem exact_stoppedBody : Exact stoppedBody showStopped := by
  rintro v ⟨reason, description, threadId, words, all, hit⟩
  simp [stoppedBody, showStopped, recordOnce, record, Option.bind_eq_some_iff, textSlots_eq_some,
    withDefault_iff exact_text, withDefault_iff exact_i64, withDefault_iff exact_flag,
    withDefault_iff (exact_vec exact_i64), fields_cons, and_assoc, -Bool.exists_bool]

theorem exact_outputBody : Exact outputBody showOutput := by
  rintro v ⟨category, output⟩
  simp [outputBody, showOutput, recordOnce, record, Option.bind_eq_some_iff, textSlots_eq_some,
    withDefault_iff exact_text, fields_cons, and_assoc]

theorem exact_exitedBody : Exact exitedBody showExited := by
  rintro v ⟨exitCode⟩
  simp [exitedBody, showExited, recordOnce, record, Option.bind_eq_some_iff, textSlots_eq_some,
    withDefault_iff exact_i64, fields_cons, and_assoc]

theorem required_any {α : Type} {d : Decoder α} {shown : α → Shown} (exact : Exact d shown)
    {slot : Option Value} :
    (∃ a, required d slot = some a) ↔ InSlot (some_ shown) False slot := by
  simp only [required_iff exact]
  cases slot <;> simp [InSlot, some_]

theorem exact_eventWith {α : Type} {body : Decoder α} {shown : α → Shown}
    (exact : Exact body shown) : Exact (eventWith body) (showEvent shown) := by
  intro v b
  simp [eventWith, showEvent, recordOnce, record, Option.bind_eq_some_iff, textSlots_eq_some,
    required_iff exact, ← required_any exact_i64, ← required_any exact_text, fields_cons, and_assoc]

theorem exact_request : Exact request showRequest := by
  rintro v ⟨seq, ty, command, arguments⟩
  simp [request, showRequest, showRaw, recordOnce, record, Option.bind_eq_some_iff,
    textSlots_eq_some, required_iff exact_i64, required_iff exact_text,
    withDefault_iff (exact_option exact_raw), fields_cons, and_assoc]

/-! Which values are read as which message. -/

def eventName : Event → String
  | .initialized => "initialized"
  | .stopped _ => "stopped"
  | .output _ => "output"
  | .exited _ => "exited"
  | .terminated => "terminated"
  | .thread => "thread"
  | .breakpoint => "breakpoint"
  | .process => "process"
  | .continued => "continued"
  | .module => "module"
  | .capabilities => "capabilities"

/-- What is asked of an event beyond its name: three kinds need a body. -/
def ShowsBody (v : Value) : Event → Prop
  | .stopped body => showEvent showStopped body v
  | .output body => showEvent showOutput body v
  | .exited body => showEvent showExited body v
  | _ => True

/-- The values of a message: the envelope says of which kind it is. -/
inductive Reads (v : Value) : DapMessage → Prop
  | response {e : Envelope} {r : Response} (envelope : showEnvelope e v) (ty : e.ty = "response")
      (shown : showResponse r v) : Reads v (.response r)
  | event {e : Envelope} {event : Event} (envelope : showEnvelope e v) (ty : e.ty = "event")
      (named : e.event = some (eventName event)) (shown : ShowsBody v event) :
      Reads v (.event event)
  | unknown {e : Envelope} (envelope : showEnvelope e v) (ty : e.ty = "event")
      (unknown : ∀ event, e.event ≠ some (eventName event)) : Reads v (.other e)
  | other {e : Envelope} (envelope : showEnvelope e v) (response : e.ty ≠ "response")
      (event : e.ty ≠ "event") : Reads v (.other e)

variable {parse : Bytes → Option Value} {bytes : Bytes} {v : Value}

/-- An event with a body. -/
private theorem bodied {α : Type} {d : Decoder α} {shown : α → Shown} (exact : Exact d shown)
    (make : α → Event) {o : Option Event} :
    (do return some (make (← orJson ((some v).bind d))) : Except WireError (Option Event)) =
      .ok o ↔ ∃ a, shown a v ∧ o = some (make a) := by
  rw [Option.bind_some]
  cases decoded : d v with
  | none =>
    constructor
    · intro h
      cases h
    · rintro ⟨a, shows, -⟩
      cases decoded.symm.trans ((exact v a).mpr shows)
  | some a =>
    constructor
    · intro h
      exact ⟨a, (exact v a).mp decoded, (Except.ok.inj h).symm⟩
    · rintro ⟨a', shows, rfl⟩
      obtain rfl := Option.some.inj (decoded.symm.trans ((exact v a').mpr shows))
      rfl

theorem eventFromEnvelope_ok_iff (parsed : parse bytes = some v) (e : Envelope)
    {o : Option Event} : eventFromEnvelope (serde parse) bytes e = .ok o ↔
      (∃ event, e.event = some (eventName event) ∧ ShowsBody v event ∧ o = some event) ∨
      ((∀ event, e.event ≠ some (eventName event)) ∧ o = none) := by
  have stopped := @bodied v _ _ _ (exact_eventWith exact_stoppedBody) .stopped o
  have output := @bodied v _ _ _ (exact_eventWith exact_outputBody) .output o
  have exited := @bodied v _ _ _ (exact_eventWith exact_exitedBody) .exited o
  rw [← parsed] at stopped output exited
  constructor
  · intro h
    unfold eventFromEnvelope at h
    split at h
    · rename_i none
      exact .inr ⟨fun event eq => by simp [none] at eq, (Except.ok.inj h).symm⟩
    · rename_i name named
      split at h
      · exact .inl ⟨.initialized, named, trivial, (Except.ok.inj h).symm⟩
      · obtain ⟨body, shown, rfl⟩ := stopped.mp h
        exact .inl ⟨.stopped body, named, shown, rfl⟩
      · obtain ⟨body, shown, rfl⟩ := output.mp h
        exact .inl ⟨.output body, named, shown, rfl⟩
      · obtain ⟨body, shown, rfl⟩ := exited.mp h
        exact .inl ⟨.exited body, named, shown, rfl⟩
      · exact .inl ⟨.terminated, named, trivial, (Except.ok.inj h).symm⟩
      · exact .inl ⟨.thread, named, trivial, (Except.ok.inj h).symm⟩
      · exact .inl ⟨.breakpoint, named, trivial, (Except.ok.inj h).symm⟩
      · exact .inl ⟨.process, named, trivial, (Except.ok.inj h).symm⟩
      · exact .inl ⟨.continued, named, trivial, (Except.ok.inj h).symm⟩
      · exact .inl ⟨.module, named, trivial, (Except.ok.inj h).symm⟩
      · exact .inl ⟨.capabilities, named, trivial, (Except.ok.inj h).symm⟩
      · refine .inr ⟨fun event eq => ?_, (Except.ok.inj h).symm⟩
        obtain rfl := Option.some.inj (named.symm.trans eq)
        cases event <;> simp_all [eventName]
  · rintro (⟨event, named, shown, rfl⟩ | ⟨unknown, rfl⟩)
    · unfold eventFromEnvelope
      rw [named]
      cases event with
      | stopped body => exact stopped.mpr ⟨body, shown, rfl⟩
      | output body => exact output.mpr ⟨body, shown, rfl⟩
      | exited body => exact exited.mpr ⟨body, shown, rfl⟩
      | _ => rfl
    · unfold eventFromEnvelope
      split
      · rfl
      · rename_i name named
        split
        · exact absurd named (unknown .initialized)
        · exact absurd named (unknown (.stopped ⟨"", "", 0, "", false, []⟩))
        · exact absurd named (unknown (.output ⟨"", ""⟩))
        · exact absurd named (unknown (.exited ⟨0⟩))
        · exact absurd named (unknown .terminated)
        · exact absurd named (unknown .thread)
        · exact absurd named (unknown .breakpoint)
        · exact absurd named (unknown .process)
        · exact absurd named (unknown .continued)
        · exact absurd named (unknown .module)
        · exact absurd named (unknown .capabilities)
        · rfl

theorem orJson_bind {α β : Type} {o : Option α} {f : α → Except WireError β} {b : β} :
    (orJson o >>= f) = .ok b ↔ ∃ a, o = some a ∧ f a = .ok b := by
  cases o with
  | none =>
    constructor
    · intro h
      cases h
    · rintro ⟨a, h, -⟩
      cases h
  | some a =>
    constructor
    · exact fun h => ⟨a, rfl, h⟩
    · rintro ⟨a', eq, h⟩
      obtain rfl := Option.some.inj eq
      exact h

/-- The bytes of a body are read as a message exactly when their value presents it. -/
theorem fromSlice_ok_iff (parsed : parse bytes = some v) {m : DapMessage} :
    fromSlice (serde parse) bytes = .ok m ↔ Reads v m := by
  have opened {α : Type} {d : Decoder α} : (parse bytes).bind d = d v := by
    rw [parsed, Option.bind_some]
  unfold fromSlice
  rw [orJson_bind]
  constructor
  · rintro ⟨e, decoded, h⟩
    have shown : showEnvelope e v := (exact_envelope v e).mp (opened.symm.trans decoded)
    split at h
    · rename_i ty
      obtain ⟨r, decoded, eq⟩ := orJson_bind.mp h
      cases eq
      exact .response shown ty ((exact_response v r).mp (opened.symm.trans decoded))
    · rename_i ty
      cases read : eventFromEnvelope (serde parse) bytes e with
      | error e' =>
        rw [read] at h
        cases h
      | ok o =>
        rw [read] at h
        rcases (eventFromEnvelope_ok_iff parsed e).mp read with
          ⟨event, named, body, rfl⟩ | ⟨unknown, rfl⟩
        · cases h
          exact .event shown ty named body
        · cases h
          exact .unknown shown ty unknown
    · rename_i response event
      cases h
      exact .other shown response event
  · intro reads
    cases reads with
    | @response e r shown ty body =>
      refine ⟨e, opened.trans ((exact_envelope v e).mpr shown), ?_⟩
      simp only [ty]
      exact orJson_bind.mpr ⟨r, opened.trans ((exact_response v r).mpr body), rfl⟩
    | @event e event shown ty named body =>
      refine ⟨e, opened.trans ((exact_envelope v e).mpr shown), ?_⟩
      have read := (eventFromEnvelope_ok_iff parsed e).mpr (.inl ⟨event, named, body, rfl⟩)
      simp only [ty, read]
      rfl
    | @unknown e shown ty unknown =>
      refine ⟨e, opened.trans ((exact_envelope v e).mpr shown), ?_⟩
      have read := (eventFromEnvelope_ok_iff parsed e).mpr (.inr ⟨unknown, rfl⟩)
      simp only [ty, read]
      rfl
    | @other e shown response event =>
      refine ⟨e, opened.trans ((exact_envelope v e).mpr shown), ?_⟩
      split
      · exact absurd ‹_› response
      · exact absurd ‹_› event
      · rfl

/-! How messages are written. -/

/-- A field that is skipped where there is nothing. -/
def unlessNone (key : String) : Option Value → List (String × Value)
  | none => []
  | some v => [(key, v)]

def encodeEnvelope (e : Envelope) : Value :=
  .object ([("seq", .int e.seq), ("type", .string e.ty)] ++
    unlessNone "command" (e.command.map .string) ++ unlessNone "event" (e.event.map .string))

def encodeResponse (r : Response) : Value :=
  .object ([("seq", .int r.seq), ("type", .string r.ty), ("request_seq", .int r.requestSeq),
    ("success", .bool r.success), ("command", .string r.command)] ++
    unlessNone "message" (if r.message = "" then none else some (.string r.message)) ++
    unlessNone "body" r.body)

def encodeRequest (r : Request) : Value :=
  .object ([("seq", .int r.seq), ("type", .string r.ty), ("command", .string r.command)] ++
    unlessNone "arguments" r.arguments)

def encodeStopped (b : StoppedBody) : Value :=
  .object [("reason", .string b.reason), ("description", .string b.description),
    ("threadId", .int b.threadId), ("text", .string b.text),
    ("allThreadsStopped", .bool b.allThreadsStopped),
    ("hitBreakpointIds", .array (b.hitBreakpointIds.map .int))]

def encodeOutput (b : OutputBody) : Value :=
  .object [("category", .string b.category), ("output", .string b.output)]

def encodeExited (b : ExitedBody) : Value := .object [("exitCode", .int b.exitCode)]

/-- The fields of an event. -/
def eventFields (seq : Int) (event : Event) : List (String × Value) :=
  [("seq", .int seq), ("type", .string "event"), ("event", .string (eventName event))]

def encodeEvent (seq : Int) (event : Event) : Value :=
  .object (eventFields seq event ++
    match event with
    | .stopped body => [("body", encodeStopped body)]
    | .output body => [("body", encodeOutput body)]
    | .exited body => [("body", encodeExited body)]
    | _ => [])

/-- A null is read as nothing. -/
def present : Option Value → Option Value
  | some .null => none
  | o => o

theorem inSlot_present (o : Option Value) :
    InSlot (showRaw (present o)) (present o = none) o := by
  rcases o with _ | v
  · rfl
  · cases v with
    | null => rfl
    | bool | int | string | array | object => exact ⟨nofun, rfl⟩

/-- An object whose fields are those of an envelope, among others. -/
theorem shows_envelope {fields : List (String × Value)} {e : Envelope}
    (single : once ["seq", "type", "command", "event"] (.object fields) = true)
    (seq : fields.lookup "seq" = some (.int e.seq)) (fits : InI64 e.seq)
    (ty : fields.lookup "type" = some (.string e.ty))
    (command : fields.lookup "command" = e.command.map .string)
    (event : fields.lookup "event" = e.event.map .string) : showEnvelope e (.object fields) := by
  have given (o : Option String) : InSlot (optional string o) (o = none) (o.map .string) := by
    cases o with
    | none => rfl
    | some s => exact ⟨nofun, rfl⟩
  refine ⟨single, _, rfl, fields_cons.mpr ⟨?_, fields_cons.mpr ⟨?_, fields_cons.mpr ⟨?_,
    fields_cons.mpr ⟨?_, nofun⟩⟩⟩⟩⟩
  · simp only [must_shows, must_key, seq]
    exact ⟨rfl, fits⟩
  · simp only [must_shows, must_key, ty]
    exact rfl
  · simp only [may_shows, may_key, command]
    exact given e.command
  · simp only [may_shows, may_key, event]
    exact given e.event

theorem shows_encodeResponse {r : Response} (seq : InI64 r.seq) (requestSeq : InI64 r.requestSeq) :
    showEnvelope ⟨r.seq, r.ty, some r.command, none⟩ (encodeResponse r) ∧
      showResponse { r with body := present r.body } (encodeResponse r) := by
  obtain ⟨n, ty, q, success, command, message, body⟩ := r
  obtain ⟨m, eq, shown⟩ : ∃ m, (if message = "" then none else some (.string message)) = m ∧
      InSlot (string message) (message = "") m := by
    by_cases empty : message = ""
    · exact ⟨none, if_pos empty, empty⟩
    · exact ⟨some (.string message), if_neg empty, rfl⟩
  have value : encodeResponse ⟨n, ty, q, success, command, message, body⟩ =
      .object ([("seq", .int n), ("type", .string ty), ("request_seq", .int q),
        ("success", .bool success), ("command", .string command)] ++ unlessNone "message" m ++
        unlessNone "body" body) := by
    rw [← eq]
    rfl
  have rest := inSlot_present body
  rw [value]
  cases m <;> cases body <;>
    exact ⟨shows_envelope rfl rfl seq rfl rfl rfl, rfl, _, rfl, fields_cons.mpr ⟨⟨rfl, seq⟩,
      fields_cons.mpr ⟨rfl, fields_cons.mpr ⟨⟨rfl, requestSeq⟩, fields_cons.mpr ⟨rfl,
      fields_cons.mpr ⟨rfl, fields_cons.mpr ⟨shown, fields_cons.mpr
      ⟨rest, nofun⟩⟩⟩⟩⟩⟩⟩⟩

theorem shows_encodeRequest {r : Request} (seq : InI64 r.seq) :
    showEnvelope ⟨r.seq, r.ty, some r.command, none⟩ (encodeRequest r) ∧
      showRequest { r with arguments := present r.arguments } (encodeRequest r) := by
  obtain ⟨n, ty, command, arguments⟩ := r
  have rest := inSlot_present arguments
  cases arguments <;>
    exact ⟨shows_envelope rfl rfl seq rfl rfl rfl, rfl, _, rfl, fields_cons.mpr ⟨⟨rfl, seq⟩,
      fields_cons.mpr ⟨rfl, fields_cons.mpr ⟨rfl, fields_cons.mpr ⟨rest, nofun⟩⟩⟩⟩⟩

/-- The numbers of an event are `i64`. -/
def EventFits : Event → Prop
  | .stopped body => InI64 body.threadId ∧ ∀ id ∈ body.hitBreakpointIds, InI64 id
  | .exited body => InI64 body.exitCode
  | _ => True

theorem shows_encodeStopped {b : StoppedBody} (threadId : InI64 b.threadId)
    (ids : ∀ id ∈ b.hitBreakpointIds, InI64 id) : showStopped b (encodeStopped b) := by
  refine ⟨rfl, _, rfl, fields_cons.mpr ⟨rfl, fields_cons.mpr ⟨rfl, fields_cons.mpr
    ⟨⟨rfl, threadId⟩, fields_cons.mpr ⟨rfl, fields_cons.mpr ⟨rfl, fields_cons.mpr
    ⟨⟨_, rfl, ?_⟩, nofun⟩⟩⟩⟩⟩⟩⟩
  rw [List.forall₂_map_left_iff, List.forall₂_map_right_iff]
  exact List.forall₂_same.mpr fun id mem => ⟨rfl, ids id mem⟩

theorem shows_encodeEvent {seq : Int} {event : Event} (fits : InI64 seq)
    (known : EventFits event) :
    showEnvelope ⟨seq, "event", none, some (eventName event)⟩ (encodeEvent seq event) ∧
      ShowsBody (encodeEvent seq event) event := by
  have withBody {α : Type} {shown : α → Shown} {a : α} {v : Value} (shows : shown a v) :
      showEvent shown a (.object (eventFields seq event ++ [("body", v)])) :=
    ⟨rfl, _, rfl, fields_cons.mpr ⟨⟨seq, rfl, fits⟩, fields_cons.mpr ⟨⟨"event", rfl⟩,
      fields_cons.mpr ⟨⟨eventName event, rfl⟩, fields_cons.mpr ⟨shows, nofun⟩⟩⟩⟩⟩
  cases event with
  | stopped body =>
    exact ⟨shows_envelope rfl rfl fits rfl rfl rfl, withBody (shows_encodeStopped known.1 known.2)⟩
  | output body =>
    exact ⟨shows_envelope rfl rfl fits rfl rfl rfl,
      withBody ⟨rfl, _, rfl, fields_cons.mpr ⟨rfl, fields_cons.mpr ⟨rfl, nofun⟩⟩⟩⟩
  | exited body =>
    exact ⟨shows_envelope rfl rfl fits rfl rfl rfl,
      withBody ⟨rfl, _, rfl, fields_cons.mpr ⟨⟨rfl, known⟩, nofun⟩⟩⟩
  | _ => exact ⟨shows_envelope rfl rfl fits rfl rfl rfl, trivial⟩

/-! Messages as they are sent, and as they are read. -/

/-- A message that an adapter sends. -/
inductive Sent where
  | response (r : Response)
  | event (seq : Int) (e : Event)
  | request (r : Request)

namespace Sent

def encode : Sent → Value
  | .response r => encodeResponse r
  | .event seq e => encodeEvent seq e
  | .request r => encodeRequest r

/-- What the client makes of it: of a request it keeps the envelope. -/
def message : Sent → DapMessage
  | .response r => .response { r with body := present r.body }
  | .event _ e => .event e
  | .request r => .other ⟨r.seq, r.ty, some r.command, none⟩

/-- The numbers are `i64`, and the type is that of the kind. -/
def Fits : Sent → Prop
  | .response r => InI64 r.seq ∧ InI64 r.requestSeq ∧ r.ty = "response"
  | .event seq e => InI64 seq ∧ EventFits e
  | .request r => InI64 r.seq ∧ r.ty = "request"

theorem reads_encode {m : Sent} (fits : m.Fits) : Reads m.encode m.message := by
  cases m with
  | response r =>
    obtain ⟨seq, requestSeq, ty⟩ := fits
    obtain ⟨envelope, shown⟩ := shows_encodeResponse seq requestSeq
    exact .response envelope ty shown
  | event seq e =>
    obtain ⟨envelope, body⟩ := shows_encodeEvent fits.1 fits.2
    exact .event envelope rfl rfl body
  | request r =>
    obtain ⟨seq, ty⟩ := fits
    refine .other (shows_encodeRequest seq).1 ?_ ?_ <;> simp [ty]

end Sent

/-- A printer and a parser of JSON texts. -/
structure Json where
  print : Value → Bytes
  parse : Bytes → Option Value

namespace Json

/-- The parser takes the text of the value for the value, and a frame can hold the text. -/
def Carries (json : Json) (v : Value) : Prop :=
  json.parse (json.print v) = some v ∧ (json.print v).length ≤ maxContentLength

/-- `write_message`. -/
def write (json : Json) (v : Value) : Bytes := frame (json.print v)

variable {json : Json}

theorem readFrame_write (carries : json.Carries v) (tail : Bytes) :
    readFrame (json.write v ++ tail) = .ok (json.print v, tail) :=
  readFrame_frame carries.2 tail

theorem readMessage_write {m : DapMessage} (carries : json.Carries v) (reads : Reads v m)
    (tail : Bytes) : readMessage (serde json.parse) (json.write v ++ tail) = .ok (m, tail) := by
  have decoded := (fromSlice_ok_iff carries.1).mpr reads
  unfold readMessage
  rw [readFrame_write carries]
  simp only [bind, Except.bind, decoded]
  rfl

end Json

end LldbDebugMcp.Client.Codec
