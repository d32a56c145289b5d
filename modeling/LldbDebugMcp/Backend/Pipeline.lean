/- module: LldbDebugMcp/Backend/Pipeline
   source: crates/lldb-backend/src/{requests,body}.rs, crates/dap-client/src/wire.rs
   digest: An operation of the backend over the bytes of the wire, there and back. -/

import LldbDebugMcp.Backend.Refinement
import LldbDebugMcp.Client.Codec

set_option autoImplicit false
set_option relaxedAutoImplicit false

namespace LldbDebugMcp.Backend.Pipeline

open LldbDebugMcp.Core.Types
open LldbDebugMcp.Core.Decode
open LldbDebugMcp.Client.Message
open LldbDebugMcp.Client.State (PendingResult)
open LldbDebugMcp.Client.Wire
open LldbDebugMcp.Client.Codec
open LldbDebugMcp.Backend.Operations
open LldbDebugMcp.Backend.Queries
open LldbDebugMcp.Backend.Answers
open LldbDebugMcp.Backend.Refinement

/-- The request in the first frame of some bytes. -/
def readRequest (json : Json) (bytes : Bytes) : Option Request :=
  match readFrame bytes with
  | .error _ => none
  | .ok (body, _) => (json.parse body).bind Client.Codec.request

/-- The bytes that an adapter writes in reply to those of a request. -/
def answerBytes (json : Json) (d : Debuggee) (bytes : Bytes) : Bytes :=
  match readRequest json bytes with
  | none => []
  | some request => json.write (encodeResponse (reply d request))

/-- The client writes a request under a seq, and reads what comes back. Where nothing can be read
the connection is closed. -/
def exchange (json : Json) (d : Debuggee) (seq : Int) (request : Request) : PendingResult :=
  match readMessage (serde json.parse)
    (answerBytes json d (json.write (encodeRequest (request.setSeq seq)))) with
  | .error _ => .error .closed
  | .ok (message, _) => .ok message

/-- An adapter at the other end of the wire. -/
def wired (json : Json) (d : Debuggee) (stderr : String) (seq : Int) : (i : Op) → i.Result
  | .send request => exchange json d seq request
  | .sendAsync _ => .ok ()
  | .waitInitialized | .register | .startKill | .waitChild => ()
  | .recvReply | .recvStop => none
  | .stderr => stderr
  | .takeChild => false

/-- The arguments of an operation are an object, or there are none. -/
theorem present_arguments (env : Env) (a : Ask) :
    present (a.request env).arguments = (a.request env).arguments := by
  cases a with
  | evaluate expr frameId mode => cases mode <;> rfl
  | _ => rfl

/-- The adapter reads the request that was written. -/
theorem readRequest_write {json : Json} {r : Request} (seq : InI64 r.seq)
    (plain : present r.arguments = r.arguments) (carries : json.Carries (encodeRequest r)) :
    readRequest json (json.write (encodeRequest r)) = some r := by
  have framed := Json.readFrame_write carries []
  have decoded := (exact_request _ _).mpr (shows_encodeRequest seq).2
  rw [List.append_nil] at framed
  unfold readRequest
  rw [framed]
  simp only [carries.1, Option.bind_some, decoded, plain]

/-- The body of a response is an object, or there is none. -/
theorem present_reply (d : Debuggee) (request : Request) :
    present (reply d request).body = (reply d request).body := by
  unfold reply
  cases asked request with
  | none => rfl
  | some q =>
    simp only []
    cases answered : d q with
    | ok answer => cases q <;> rfl
    | error message => rfl

theorem reply_head (d : Debuggee) (request : Request) : (reply d request).seq = 0 ∧
    (reply d request).requestSeq = request.seq ∧ (reply d request).ty = "response" := by
  unfold reply
  cases asked request with
  | none => exact ⟨rfl, rfl, rfl⟩
  | some q =>
    simp only []
    cases d q <;> exact ⟨rfl, rfl, rfl⟩

/-- What the client is told after the way there and back. -/
theorem exchange_eq {json : Json} {d : Debuggee} {seq : Int} {request : Request}
    (fits : InI64 seq) (plain : present request.arguments = request.arguments)
    (sent : json.Carries (encodeRequest (request.setSeq seq)))
    (back : json.Carries (encodeResponse (reply d (request.setSeq seq)))) :
    exchange json d seq request = .ok (.response (reply d (request.setSeq seq))) := by
  have read := @readRequest_write json (request.setSeq seq) fits plain sent
  obtain ⟨first, correlated, ty⟩ := reply_head d (request.setSeq seq)
  have seqs : (Sent.response (reply d (request.setSeq seq))).Fits :=
    ⟨by rw [first]; decide, by rw [correlated]; exact fits, ty⟩
  have reads := Sent.reads_encode seqs
  have received := Json.readMessage_write back reads []
  rw [List.append_nil] at received
  unfold exchange answerBytes
  rw [read]
  simp only [received, Sent.message, present_reply]

/-- Over the bytes of the wire, an operation of the backend comes to what the debuggee answers to
its query: the request survives its serialization and framing, and so does the answer. -/
theorem over_the_wire {env : Env} (standard : Env.Standard env) (json : Json) {d : Debuggee}
    (a : Ask) {seq : Int} (stderr : String) (small : InI64 seq)
    (fits : ∀ answer, d (a.query env.isLldbDap) = .ok answer → Fits _ answer)
    (sent : json.Carries (encodeRequest ((a.request env).setSeq seq)))
    (back : json.Carries (encodeResponse (reply d ((a.request env).setSeq seq)))) :
    (a.program env).run.eval (wired json d stderr seq) =
      result d stderr (a.query env.isLldbDap) := by
  have replied := exchange_eq small (present_arguments env a) sent back
  have understood : asked ((a.request env).setSeq seq) = some (a.query env.isLldbDap) :=
    a.asked_request env
  exact eval_answered standard a rfl replied (answers_reply understood fits)

/-- A debuggee of one thread. -/
def oneThread : Debuggee
  | .threads => .ok [⟨1, "main"⟩]
  | _ => .error ""

/-- The texts of a request for the threads, and of the response. -/
def threadsTexts : List Char × List Char :=
  ("\x7b\"seq\":3,\"type\":\"request\",\"command\":\"threads\"\x7d".toList,
    ("\x7b\"seq\":0,\"type\":\"response\",\"request_seq\":3,\"success\":true," ++
      "\"command\":\"threads\",\"body\":\x7b\"threads\":[\x7b\"id\":1," ++
      "\"name\":\"main\"\x7d]\x7d\x7d").toList)

def threadsRequest : Request := ((Ask.request (reference true) .threads).setSeq 3)

/-- What serde_json prints and parses of the two. -/
def threadsJson : Json where
  print
    | .object (("seq", .int 3) :: _) => Library.Text.encode threadsTexts.1
    | _ => Library.Text.encode threadsTexts.2
  parse bytes :=
    if bytes = Library.Text.encode threadsTexts.1 then some (encodeRequest threadsRequest)
    else if bytes = Library.Text.encode threadsTexts.2 then
      some (encodeResponse (reply oneThread threadsRequest))
    else none

theorem over_the_wire_threads :
    (Ask.threads.program (reference true)).run.eval (wired threadsJson oneThread "" 3) =
      .ok [⟨1, "main"⟩] := by
  have different : Library.Text.encode threadsTexts.2 ≠ Library.Text.encode threadsTexts.1 := by
    decide +kernel
  have first : threadsJson.parse (Library.Text.encode threadsTexts.1) =
      some (encodeRequest threadsRequest) := by
    simp only [threadsJson, if_true]
  have second : threadsJson.parse (Library.Text.encode threadsTexts.2) =
      some (encodeResponse (reply oneThread threadsRequest)) := by
    simp only [threadsJson, different, if_false, if_true]
  have printed : threadsJson.print (encodeResponse (reply oneThread threadsRequest)) =
      Library.Text.encode threadsTexts.2 := by
    decide +kernel
  have back : threadsJson.Carries (encodeResponse (reply oneThread threadsRequest)) :=
    ⟨printed ▸ second, by decide +kernel⟩
  refine over_the_wire (standard_reference true) threadsJson .threads "" (by decide)
    (fun answer answered => ?_) ⟨first, by decide +kernel⟩ back
  cases answered
  intro t mem
  obtain rfl := List.mem_singleton.mp mem
  decide

end LldbDebugMcp.Backend.Pipeline
