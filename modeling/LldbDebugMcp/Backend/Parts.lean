/- module: LldbDebugMcp/Backend/Parts
   source: crates/lldb-backend/src/backend.rs
   digest: The parts of the backend's calls that only exchange messages. -/

import LldbDebugMcp.Backend.Operations

set_option autoImplicit false
set_option relaxedAutoImplicit false

namespace LldbDebugMcp.Backend.Parts

open LldbDebugMcp.Core.Types
open LldbDebugMcp.Client.Message
open LldbDebugMcp.Library.Effect
open LldbDebugMcp.Backend
open LldbDebugMcp.Backend.Operations

/-- The operations of an exchange: requests and their replies, and a look at the stderr. -/
def Op.exchanges : Op → Prop
  | .send _ | .sendAsync _ | .recvReply | .stderr => True
  | _ => False

variable {γ α β : Type} {ok : γ → Op → Prop} {after : γ → (i : Op) → i.Result → γ} {g : γ}

/-- A ghost state that the operation is allowed in, and does not move. -/
abbrev Still (ok : γ → Op → Prop) (after : γ → (i : Op) → i.Result → γ) (g : γ) (i : Op) : Prop :=
  ok g i ∧ ∀ r, after g i r = g

/-- A ghost state that exchanges do not move. -/
def Rests (ok : γ → Op → Prop) (after : γ → (i : Op) → i.Result → γ) (g : γ) : Prop :=
  ∀ i, Op.exchanges i → Still ok after g i

/-- The operations of an exchange whose reply is awaited at once. -/
def Op.asks : Op → Prop
  | .send _ | .recvReply | .stderr => True
  | _ => False

/-- A ghost state that such exchanges do not move. -/
def Asks (ok : γ → Op → Prop) (after : γ → (i : Op) → i.Result → γ) (g : γ) : Prop :=
  ∀ i, Op.asks i → Still ok after g i

theorem Rests.asks (rests : Rests ok after g) : Asks ok after g := fun i asks =>
  rests i (by cases i <;> first | exact asks.elim | trivial)

/-- A part that does not move the ghost state, whether it fails or not. -/
abbrev Stays (ok : γ → Op → Prop) (after : γ → (i : Op) → i.Result → γ) (g : γ)
    (x : Checked α) : Prop :=
  Program.Yields ok after (fun g' _ => g' = g) (fun g' _ => g' = g) g x

theorem stays_then {x : Checked α} {f : α → Checked β} (first : Stays ok after g x)
    (rest : ∀ value, Stays ok after g (f value)) : Stays ok after g (x >>= f) := by
  refine first.bind fun g' value h => ?_
  subst h
  exact rest value

/-- The text of an error is looked up, and the error is raised. -/
theorem yields_diagnostic {raise : γ → BackendError → Prop} {post : γ → α → Prop}
    (reads : Still ok after g .stderr) (raises : ∀ e, raise g e) (text : String → String)
    (message : String) :
    Program.Yields ok after raise post g (do throw (.dap (text (← diagnostic message)))) := by
  have safe : Program.Safe ok after (fun g' _ => g' = g) g (diagnostic message) := by
    unfold diagnostic
    split
    · rfl
    · refine ⟨reads.1, fun stderr => ?_⟩
      rw [reads.2]
      change Program.Safe _ _ _ _ (if stderr ≠ "" then _ else _)
      split <;> rfl
  refine (Program.yields_lift safe).bind fun g' _ h => ?_
  subst h
  exact raises _

theorem stays_checkResponse (reads : Still ok after g .stderr) (op failedOp : String)
    (message : DapMessage) : Stays ok after g (checkResponse op failedOp message) := by
  unfold checkResponse
  split
  · split
    · rfl
    · exact yields_diagnostic reads (fun _ => rfl) (fun text => failedOp ++ " failed: " ++ text) _
  · rfl

theorem stays_sendOr (asks : Asks ok after g) (failure : String) (request : Request) :
    Stays ok after g (sendOr failure request) := by
  refine ⟨(asks (.send request) trivial).1, fun r => ?_⟩
  rw [(asks (.send request) trivial).2]
  cases r <;> rfl

theorem stays_exchange (asks : Asks ok after g) : Stays ok after g initializeExchange :=
  stays_then (stays_sendOr asks _ _) fun message =>
    stays_then (stays_checkResponse (asks .stderr trivial) _ _ message) fun _ => rfl

/-- A part that stays, where what it ends in is accepted. -/
theorem Stays.ends {raise : γ → BackendError → Prop} {post : γ → α → Prop} {x : Checked α}
    (stays : Stays ok after g x) (raises : ∀ e, raise g e) (done : ∀ value, post g value) :
    Program.Yields ok after raise post g x :=
  stays.mono fun g' r h => by
    cases r with
    | ok value =>
      obtain rfl : g' = g := h
      exact done value
    | error e =>
      obtain rfl : g' = g := h
      exact raises e

/-- A part that stays, where more errors are accepted. -/
theorem Stays.raises {raise : γ → BackendError → Prop} {x : Checked α}
    (stays : Stays ok after g x) (raises : ∀ e, raise g e) :
    Program.Yields ok after raise (fun g' _ => g' = g) g x :=
  stays.ends raises fun _ => rfl

/-- A part that stays, and what comes after it. -/
theorem Stays.andThen {raise : γ → BackendError → Prop} {post : γ → β → Prop} {x : Checked α}
    {f : α → Checked β} (stays : Stays ok after g x) (raises : ∀ e, raise g e)
    (rest : ∀ value, Program.Yields ok after raise post g (f value)) :
    Program.Yields ok after raise post g (x >>= f) := by
  refine (stays.raises raises).bind fun g' value h => ?_
  subst h
  exact rest value

/-- The message is a response that accepts a request of this command. -/
def Accepted (command : String) : DapMessage → Prop
  | .response response => response.success = true ∧ response.command = command
  | .event _ | .other _ => False

instance (command : String) (message : DapMessage) : Decidable (Accepted command message) :=
  match message with
  | .response response =>
    inferInstanceAs (Decidable (response.success = true ∧ response.command = command))
  | .event _ | .other _ => .isFalse id

/-- The request leads to a resting state, or it is accepted where the rest of a part may end. -/
abbrev SentTo (g : γ) (command : String) (post : γ → Unit → Prop) (g' : γ)
    (message : DapMessage) : Prop :=
  g' = g ∨ Accepted command message ∧ post g' ()

theorem yields_sent {raise : γ → BackendError → Prop} {g₀ : γ} {command failure : String}
    {request : Request} {post : γ → Unit → Prop}
    (sent : Program.Yields ok after raise (fun g' _ => g' = g) g₀ (sendOr failure request)) :
    Program.Yields ok after raise (SentTo g command post) g₀ (sendOr failure request) :=
  sent.mono fun _ r h => by
    cases r with
    | ok message => exact .inl h
    | error e => exact h

/-- The flush of one file. -/
theorem yields_breakpoints {raise : γ → BackendError → Prop} {g₀ : γ} {file : String}
    {bps : List SourceBp} {post : γ → Unit → Prop} (asks : Asks ok after g)
    (raises : ∀ e, raise g e) (done : post g ())
    (sent : Program.Yields ok after raise (SentTo g "setBreakpoints" post) g₀
      (sendOr ("setBreakpoints failed for " ++ file) (Requests.setBreakpoints file bps))) :
    Program.Yields ok after raise post g₀ (sendCheckedBreakpointsForFile file bps) := by
  refine sent.bind fun g' message h => ?_
  cases message with
  | response response =>
    change Program.Yields ok after raise post g'
      (if response.command = "setBreakpoints" then _ else _)
    rcases h with rfl | ⟨⟨succeeded, command⟩, h⟩
    · split
      · split
        · exact done
        · exact yields_diagnostic (asks .stderr trivial) raises
            (fun text => "setBreakpoints failed for " ++ file ++ ": " ++ text) _
      · exact raises _
    · rw [if_pos command, if_pos succeeded]
      exact h
  | event | other =>
    rcases h with rfl | ⟨accepted, -⟩
    · exact raises _
    · exact accepted.elim

theorem yields_functions {raise : γ → BackendError → Prop} {g₀ : γ} {bps : List FunctionBp}
    {post : γ → Unit → Prop} (asks : Asks ok after g) (raises : ∀ e, raise g e)
    (none : post g₀ ()) (some : post g ())
    (sent : Program.Yields ok after raise (SentTo g "setFunctionBreakpoints" post) g₀
      (sendOr "setFunctionBreakpoints failed" (Requests.setFunctionBreakpoints bps))) :
    Program.Yields ok after raise post g₀ (flushFunctionBreakpoints bps) := by
  unfold flushFunctionBreakpoints
  split
  · exact none
  · refine sent.bind fun g' message h => ?_
    rcases h with rfl | ⟨accepted, h⟩
    · exact (stays_checkResponse (asks .stderr trivial) _ _ message).andThen raises fun _ => some
    · cases message with
      | response response =>
        change Program.Yields ok after raise post g'
          ((if response.success = true then _ else _) >>= _)
        rw [if_pos accepted.1]
        exact h
      | event | other => exact accepted.elim

theorem stays_flushSource (asks : Asks ok after g) (sources : List (String × List SourceBp)) :
    Stays ok after g (flushSourceBreakpoints sources) := by
  induction sources with
  | nil => rfl
  | cons source rest ih =>
    exact stays_then (yields_breakpoints asks (fun _ => rfl) rfl
      (yields_sent (stays_sendOr asks _ _))) fun _ => ih

theorem stays_flushFunction (asks : Asks ok after g) (bps : List FunctionBp) :
    Stays ok after g (flushFunctionBreakpoints bps) :=
  yields_functions asks (fun _ => rfl) rfl rfl (yields_sent (stays_sendOr asks _ _))

theorem stays_sendAsync (rests : Rests ok after g) (failure : String) (request : Request) :
    Stays ok after g (sendAsyncOr failure request) := by
  refine ⟨(rests (.sendAsync request) trivial).1, fun r => ?_⟩
  rw [(rests (.sendAsync request) trivial).2]
  cases r <;> rfl

theorem stays_recvReply (asks : Asks ok after g) (failure : String) :
    Stays ok after g (recvReplyOr failure) := by
  refine ⟨(asks .recvReply trivial).1, fun r => ?_⟩
  rw [(asks .recvReply trivial).2]
  rcases r with _ | (e | message) <;> rfl

theorem stays_pause (asks : Asks ok after g) : Stays ok after g Operations.pause :=
  stays_then (stays_then (stays_sendOr asks _ _) fun message =>
    stays_checkResponse (asks .stderr trivial) _ _ message) fun _ => rfl

theorem stays_awaitEntry (still : Still ok after g .recvStop) (registered : Bool) :
    Stays ok after g (awaitEntry registered) := by
  unfold awaitEntry
  split
  · refine ⟨still.1, fun r => ?_⟩
    rw [still.2]
    rcases r with _ | (info | code | _) <;> rfl
  · rfl

theorem stays_awaitAttached (still : Still ok after g .recvStop) :
    Stays ok after g awaitAttached := by
  refine ⟨still.1, fun r => ?_⟩
  rw [still.2]
  rcases r with _ | (info | code | _) <;> rfl

theorem stays_resumeAndWait (asks : Asks ok after g) (registers : Still ok after g .register)
    (still : Still ok after g .recvStop) (request : Request) :
    Stays ok after g (resumeAndWait request) := by
  have sends := asks (.send request) trivial
  refine ⟨registers.1, fun _ => ?_⟩
  rw [registers.2]
  refine ⟨sends.1, fun r => ?_⟩
  rw [sends.2]
  cases r with
  | error e => rfl
  | ok message =>
    refine ⟨still.1, fun r => ?_⟩
    rw [still.2]
    cases r <;> rfl

/-- The exchanges after the configuration of a handshake, and the rest of it. -/
theorem yields_configured {raise : γ → BackendError → Prop} {post : γ → α → Prop}
    {op failure : String} {rest : Checked α} (asks : Asks ok after g)
    (raises : ∀ e, raise g e) (yields : Program.Yields ok after raise post g rest) :
    Program.Yields ok after raise post g (do
      let _ ← sendOr "configurationDone failed" Requests.configurationDone
      let message ← recvReplyOr failure
      let _ ← checkResponse op op message
      rest) :=
  (stays_sendOr asks _ _).andThen raises fun _ =>
    (stays_recvReply asks _).andThen raises fun message =>
    (stays_checkResponse (asks .stderr trivial) _ _ message).andThen raises fun _ => yields

end LldbDebugMcp.Backend.Parts
