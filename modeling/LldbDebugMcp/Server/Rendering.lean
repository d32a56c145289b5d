/- module: LldbDebugMcp/Server/Rendering
   source: crates/mcp-tools/src/{errors,frame}.rs, crates/lldb-backend/src/backend.rs
   digest: How the error of a request reads when its call site has put it under its verbs. -/

import LldbDebugMcp.Backend.Operations
import LldbDebugMcp.Server.Breakpoints
import LldbDebugMcp.Server.Inspection

set_option autoImplicit false
set_option relaxedAutoImplicit false

namespace LldbDebugMcp.Server.Rendering

open LldbDebugMcp.Core.Types
open LldbDebugMcp.Client.Message
open LldbDebugMcp.Library.Effect
open LldbDebugMcp.Backend.Operations
open LldbDebugMcp.Server.Response

/-! The call sites that the other modules do not need. -/

def OpError.threads : OpError := .ofVerb "threads"

def OpError.readMemory : OpError := .ofVerb "readMemory"

def OpError.disassemble : OpError := .ofVerb "disassemble"

def OpError.runCommand : OpError :=
  ⟨"run_command request failed: ", "unexpected evaluate response type: ", "command failed: "⟩

/-- Where the error of a `send_checked` operation is put into words. -/
inductive Site where
  | pause
  | setBreakpoints
  | setFunctionBreakpoints
  | stackTrace
  | implicitStackTrace
  | threads
  | scopes
  | variables
  | evaluate
  | runCommand
  | readMemory
  | disassemble
  deriving DecidableEq, Repr

namespace Site

/-- The operation under which `send_checked` builds the error. -/
def op : Site → String
  | .pause => "pause"
  | .setBreakpoints => "setBreakpoints"
  | .setFunctionBreakpoints => "setFunctionBreakpoints"
  | .stackTrace | .implicitStackTrace => "stackTrace"
  | .threads => "threads"
  | .scopes => "scopes"
  | .variables => "variables"
  | .evaluate | .runCommand => "evaluate"
  | .readMemory => "readMemory"
  | .disassemble => "disassemble"

/-- The texts of the site. Those of the implicit request stand in `map_implicit_error`. -/
def texts : Site → OpError
  | .pause => OpError.pauseOp
  | .setBreakpoints => Breakpoints.OpError.setBreakpoints
  | .setFunctionBreakpoints => Breakpoints.OpError.setFunctionBreakpoints
  | .stackTrace => Inspection.OpError.stackTrace
  | .implicitStackTrace =>
    ⟨"implicit stackTrace request failed: ", "unexpected stackTrace response type: ",
      "implicit stackTrace failed: "⟩
  | .threads => Rendering.OpError.threads
  | .scopes => Inspection.OpError.scopes
  | .variables => Inspection.OpError.variables
  | .evaluate => Inspection.OpError.evaluate
  | .runCommand => Rendering.OpError.runCommand
  | .readMemory => Rendering.OpError.readMemory
  | .disassemble => Rendering.OpError.disassemble

def render : Site → BackendError → String
  | .implicitStackTrace, e => Inspection.mapImplicitError e
  | site, e => site.texts.render e

/-- What the site says when the request fails, for what the client and the process answer. -/
def shown (site : Site) (request : Request) (answer : (i : Op) → i.Result) : Option String :=
  match (sendChecked site.op request).run.eval answer with
  | .ok _ => none
  | .error e => some (site.render e)

end Site

/-- The message of a failed response reads as a send failure: the words between the verb and
the message run on into the separator of one. -/
def ReadsAsSendFailure (message : String) : Prop :=
  " request failed: ".toList <:+: ' ' :: message.toList

instance (message : String) : Decidable (ReadsAsSendFailure message) :=
  inferInstanceAs (Decidable (_ <:+: _))

/-! The search for a separator. -/

private theorem stripAfterList_none_iff {sep : List Char} (nonempty : sep ≠ [])
    (text : List Char) : stripAfterList sep text = none ↔ ¬ sep <:+: text := by
  induction text with
  | nil => simp [stripAfterList, nonempty]
  | cons c text ih =>
    rw [stripAfterList, List.infix_cons_iff, ← List.isPrefixOf_iff_prefix]
    by_cases here : sep.isPrefixOf (c :: text) = true
    · simp [here]
    · simp [here, ih]

/-- A text in which the separator cannot begin is skipped. -/
private theorem stripAfterList_skip {d : Char} {sep before : List Char}
    (starts : sep.head? = some d) (free : d ∉ before) (text : List Char) :
    stripAfterList sep (before ++ text) = stripAfterList sep text := by
  obtain ⟨rest, rfl⟩ := List.head?_eq_some_iff.mp starts
  induction before with
  | nil => rfl
  | cons c before ih =>
    have other : (d == c) = false := beq_eq_false_iff_ne.mpr fun same =>
      free (same ▸ List.mem_cons_self)
    rw [List.cons_append, stripAfterList]
    simp only [List.isPrefixOf, other, Bool.false_and, Bool.false_eq_true, if_false]
    exact ih fun later => free (List.mem_cons_of_mem c later)

private theorem stripAfterList_self {sep : List Char} (nonempty : sep ≠ []) (text : List Char) :
    stripAfterList sep (sep ++ text) = some text := by
  cases sep with
  | nil => exact absurd rfl nonempty
  | cons d sep =>
    have here : (d :: sep).isPrefixOf ((d :: sep) ++ text) = true :=
      List.isPrefixOf_iff_prefix.mpr (List.prefix_append _ _)
    rw [List.cons_append] at here ⊢
    rw [stripAfterList, if_pos here, ← List.cons_append, List.drop_left]

private theorem stripAfterList_length {sep text inner : List Char}
    (found : stripAfterList sep text = some inner) : inner.length + sep.length ≤ text.length := by
  induction text with
  | nil =>
    unfold stripAfterList at found
    split at found
    · rename_i empty
      obtain rfl := Option.some.inj found
      simp [List.isEmpty_iff.mp empty]
    · cases found
  | cons c text ih =>
    rw [stripAfterList] at found
    split at found
    · rename_i here
      obtain rfl := Option.some.inj found
      have short := (List.isPrefixOf_iff_prefix.mp here).length_le
      rw [List.length_drop]
      omega
    · have short := ih found
      rw [List.length_cons]
      omega

/-! The two shapes of a message, under the verb of an operation. -/

private theorem op_free (site : Site) : ' ' ∉ site.op.toList := by
  cases site <;> decide

private theorem stripAfter_sent (site : Site) (e : String) :
    stripAfter (site.op ++ " request failed" ++ ": " ++ e) " request failed: " = some e := by
  have parts : (site.op ++ " request failed" ++ ": " ++ e).toList =
      site.op.toList ++ (" request failed: ".toList ++ e.toList) := by
    simp [String.toList_append]
  rw [stripAfter, parts, stripAfterList_skip (d := ' ') rfl (op_free site),
    stripAfterList_self (by decide), Option.map_some, String.ofList_toList]

private theorem stripAfter_failed (site : Site) (m : String) :
    stripAfter (site.op ++ " failed: " ++ m) " failed: " = some m := by
  have parts : (site.op ++ " failed: " ++ m).toList =
      site.op.toList ++ (" failed: ".toList ++ m.toList) := by
    simp [String.toList_append]
  rw [stripAfter, parts, stripAfterList_skip (d := ' ') rfl (op_free site),
    stripAfterList_self (by decide), Option.map_some, String.ofList_toList]

/-- Of the separator of a send failure, only the space before the message can be a part. -/
private theorem stripAfter_failed_request (site : Site) (m : String) :
    stripAfter (site.op ++ " failed: " ++ m) " request failed: " =
      (stripAfterList " request failed: ".toList (' ' :: m.toList)).map String.ofList := by
  have parts : (site.op ++ " failed: " ++ m).toList =
      site.op.toList ++ (' ' :: ("failed:".toList ++ (' ' :: m.toList))) := by
    simp [String.toList_append]
  have verb : stripAfterList " request failed: ".toList
      (' ' :: ("failed:".toList ++ (' ' :: m.toList))) =
      stripAfterList " request failed: ".toList ("failed:".toList ++ (' ' :: m.toList)) := rfl
  rw [stripAfter, parts, stripAfterList_skip (d := ' ') rfl (op_free site), verb,
    stripAfterList_skip (d := ' ') rfl (by decide)]

private theorem render_dap (site : Site) (message : String) :
    site.render (.dap message) = site.texts.renderDap message := by
  cases site <;> rfl

private theorem render_sent (site : Site) (e : String) :
    site.render (.dap (site.op ++ " request failed" ++ ": " ++ e)) =
      site.texts.requestFailed ++ e := by
  rw [render_dap, OpError.renderDap, stripAfter_sent]

/-- The two prefixes of a site part before either ends, or are the same. -/
private theorem prefixes_cases (site : Site) :
    site.texts.requestFailed.toList = site.texts.failed.toList ∨
      (site.texts.failed.toList.length ≤ site.texts.requestFailed.toList.length ∧
        ¬ site.texts.failed.toList <+: site.texts.requestFailed.toList) := by
  cases site <;> decide

private theorem prefixes_part (site : Site) {a b : List Char} (shorter : a.length < b.length) :
    site.texts.requestFailed.toList ++ a ≠ site.texts.failed.toList ++ b := by
  intro same
  rcases prefixes_cases site with one | ⟨short, apart⟩
  · rw [one] at same
    rw [List.append_cancel_left same] at shorter
    exact Nat.lt_irrefl _ shorter
  · have front : site.texts.failed.toList <+: site.texts.requestFailed.toList ++ a :=
      ⟨b, same.symm⟩
    exact apart (List.prefix_of_prefix_length_le front (List.prefix_append _ _) short)

private theorem render_failed_iff (site : Site) (m : String) :
    site.render (.dap (site.op ++ " failed: " ++ m)) = site.texts.failed ++ m ↔
      ¬ ReadsAsSendFailure m := by
  rw [render_dap, OpError.renderDap, stripAfter_failed_request, ReadsAsSendFailure,
    ← stripAfterList_none_iff (by decide)]
  cases found : stripAfterList " request failed: ".toList (' ' :: m.toList) with
  | none => simp [stripAfter_failed]
  | some inner =>
    have shorter := stripAfterList_length found
    simp only [Option.map_some, reduceCtorEq, iff_false]
    intro same
    have lists := congrArg String.toList same
    rw [String.toList_append, String.toList_append, String.toList_ofList] at lists
    refine prefixes_part site ?_ lists
    rw [List.length_cons] at shorter
    change inner.length + 17 ≤ _ at shorter
    omega

/-- A send failure is always shown exactly; a failed response exactly when its diagnostic does
not read as one. -/
theorem rendering_exact_iff (site : Site) (request : Request) (answer : (i : Op) → i.Result) :
    (∀ e, answer (.send request) = .error e →
      site.shown request answer = some (site.texts.requestFailed ++ e.display)) ∧
    (∀ response, answer (.send request) = .ok (.response response) →
      response.success = false →
      (site.shown request answer =
          some (site.texts.failed ++ (diagnostic response.message).eval answer) ↔
        ¬ ReadsAsSendFailure ((diagnostic response.message).eval answer))) := by
  constructor
  · intro e sent
    rw [Site.shown, eval_sendChecked, sent]
    exact congrArg some (render_sent site e.display)
  · intro response answered failed
    rw [Site.shown, eval_sendChecked, answered]
    change (match (checkResponse site.op site.op (.response response)).run.eval answer with
      | .ok _ => none
      | .error e => some (site.render e)) = _ ↔ _
    rw [eval_checkResponse failed]
    exact Option.some_inj.trans (render_failed_iff site _)

/-- A process that writes nothing to its stderr, and a reply. -/
private def replying (reply : Client.State.PendingResult) : (i : Op) → i.Result
  | .send _ => reply
  | .sendAsync _ => .ok ()
  | .waitInitialized | .register | .startKill | .waitChild => ()
  | .recvReply => none
  | .recvStop => none
  | .stderr => ""
  | .takeChild => true

private def refusal (message : String) : Response :=
  ⟨9, "response", 4, false, "evaluate", message, none⟩

/-- A closed transport and a plain refusal are shown as what they are. -/
theorem rendering_exact_iff_evaluate :
    Site.runCommand.shown (Request.new "evaluate" none) (replying (.error .closed)) =
        some ("run_command request failed: " ++ BackendError.closed.display) ∧
      (Site.runCommand.shown (Request.new "evaluate" none)
          (replying (.ok (.response (refusal "no such command")))) =
          some ("command failed: " ++ "no such command") ↔
        ¬ ReadsAsSendFailure "no such command") :=
  ⟨(rendering_exact_iff .runCommand (Request.new "evaluate" none)
      (replying (.error .closed))).1 .closed rfl,
    (rendering_exact_iff .runCommand (Request.new "evaluate" none)
      (replying (.ok (.response (refusal "no such command"))))).2 _ rfl rfl⟩

/-- A refusal whose message holds the separator is shown as a send failure, and loses the
beginning of the message. -/
theorem refusal_shown_as_send_failure :
    Site.evaluate.shown (Request.new "evaluate" none)
        (replying (.ok (.response (refusal "x request failed: y")))) =
        some "evaluate request failed: y" ∧
      Site.evaluate.shown (Request.new "evaluate" none)
        (replying (.ok (.response (refusal "x request failed: y")))) ≠
        some (Site.evaluate.texts.failed ++ "x request failed: y") := by
  decide +kernel

end LldbDebugMcp.Server.Rendering
