/- module: LldbDebugMcp/Server/Required
   source: crates/mcp-tools/src/{schema,args}.rs, handlers/*.rs
   digest: Which calls are refused for a missing parameter, and with which text. -/

import LldbDebugMcp.Server.Dispatch

set_option autoImplicit false
set_option relaxedAutoImplicit false

namespace LldbDebugMcp.Server.Required

open LldbDebugMcp.Core.Types
open LldbDebugMcp.Session.Manager
open LldbDebugMcp.Server.Arguments
open LldbDebugMcp.Server.Breakpoints
open LldbDebugMcp.Server.Dispatch
open LldbDebugMcp.Server.Execution
open LldbDebugMcp.Server.Inspection
open LldbDebugMcp.Server.Lifecycle
open LldbDebugMcp.Server.Memory
open LldbDebugMcp.Server.Response
open LldbDebugMcp.Server.System

/-- The type as an error names it. -/
def label : PropType → String
  | .string => "string"
  | .number => "int"
  | .boolean => "bool"

/-- What there is to say of a value that is missing, or of another type. -/
def lacks (args : Args) (key : String) (ty : PropType) : Option String :=
  match args.getRaw key with
  | none => some (notFound key)
  | some v => if ty.admits v then none else some (notOfType key (label ty))

/-- The first required property that is missing, or of another type. -/
def lacking (props : List Property) (args : Args) : Option String :=
  (props.filter Property.required).findSome? fun p => lacks args p.name p.ty

/-- The states in which a tool is allowed. -/
def allowed : Tool → List State
  | .start _ => [.idle]
  | .disconnect _ => [.configuring, .stopped, .running, .terminated]
  | .resume _ => [.stopped]
  | .pause => [.running]

/-- The session has a state in which the call passes its guard. -/
def Admitted (m : SessionManager) : Called → Prop
  | .system tool => m.checkState (allowed tool) = .ok ()
  | .breakpoints tool => m.checkState tool.allowed = .ok ()
  | .inspection _ | .reading _ => m.checkState [.stopped] = .ok ()
  | .status | .listBreakpoints | .readOutput | .unknown _ => True

/-- In this state the call is refused with the text: it returns at once, asks the backend nothing
and leaves the session as it is. An inspection asks nothing if it comes to the same whatever the
backend, if there is one, would answer. -/
def Refused {S : Contract.Seam} (e : String) (w : Handler.World S) (t : Nat) (token : Bool)
    (backend : Option (BpRequest → Answer)) : Called → Prop
  | .system tool => tool.entry.next w t token .go = some (.done (.error e), none)
  | .breakpoints tool => tool.handle w.session backend = ⟨.error e, w.session, none⟩
  | .inspection handle => ∀ (toLowercase : String → String) (inspector : Option Inspector),
      inspector.isSome = backend.isSome →
        handle toLowercase w.session inspector = (.error e, w.session)
  | .reading handler => ∃ rest, handler.run = .op (.checkState [.stopped]) rest ∧
      rest (.ok ()) = .done (.error e)
  | .status | .listBreakpoints | .readOutput | .unknown _ => False

section

variable {args : Args} {detail : String}

theorem missingRequired_head : (missingRequired detail).toList.head? = some 'm' := by
  have parts : (missingRequired detail).toList =
      "missing required parameter: ".toList ++ detail.toList := String.toList_append
  rw [parts, List.head?_append]
  rfl

/-- No text that begins otherwise. -/
theorem missingRequired_ne {text : String} (other : text.toList.head? ≠ some 'm') :
    text ≠ missingRequired detail := by
  rintro rfl
  exact other missingRequired_head

theorem missingRequired_inj {detail' : String} :
    missingRequired detail = missingRequired detail' ↔ detail = detail' := by
  unfold missingRequired
  exact String.append_right_inj _

/-- Nor one that begins so. -/
theorem append_ne_missingRequired {front : String} (rest : String) {c : Char}
    (begins : front.toList.head? = some c) (other : c ≠ 'm') :
    front ++ rest ≠ missingRequired detail := by
  refine missingRequired_ne ?_
  rw [String.toList_append, List.head?_append, begins]
  exact fun same => other (Option.some.inj same)

/-- Nor one that goes on with a key. -/
theorem keyed_ne_missingRequired {front : String} (key rest : String) {c : Char}
    (begins : front.toList.head? = some c) (other : c ≠ 'm') :
    front ++ key ++ rest ≠ missingRequired detail := by
  rw [String.append_assoc]
  exact append_ne_missingRequired _ begins other

theorem notPositive_ne (key : String) : notPositive key ≠ missingRequired detail :=
  keyed_ne_missingRequired key _ rfl (by decide)

theorem requireString_reads (key : String) :
    (lacks args key .string).elim (∃ s, args.requireString key = .ok s) fun text =>
      args.requireString key = .error (missingRequired text) := by
  unfold Args.requireString lacks
  cases args.getRaw key with
  | none => rfl
  | some v =>
    cases v with
    | string s => exact ⟨s, rfl⟩
    | null | bool | number | array | object => rfl

theorem requireInt_reads (key : String) :
    (lacks args key .number).elim (∃ n, args.requireInt key = .ok n) fun text =>
      args.requireInt key = .error (missingRequired text) := by
  unfold Args.requireInt lacks
  cases args.getRaw key with
  | none => rfl
  | some v =>
    cases v with
    | number value => exact ⟨castI64 value, rfl⟩
    | null | bool | string | array | object => rfl

/-- Whether an accessor complains that a required value lacks, given that it does for such a
value and reads any other. -/
theorem lacks_iff {α : Type} {lacks : Option String} {read : Except String α}
    (reads : lacks.elim (∃ a, read = .ok a) fun text => read = .error (missingRequired text)) :
    read = .error (missingRequired detail) ↔ lacks = some detail := by
  cases lacks with
  | none =>
    obtain ⟨a, rfl⟩ := reads
    exact iff_of_false nofun nofun
  | some text =>
    obtain rfl : read = .error (missingRequired text) := reads
    rw [Except.error.injEq, missingRequired_inj, Option.some.injEq]

theorem requirePositiveInt_refused (key : String) :
    args.requirePositiveInt key = .error (missingRequired detail) ↔
      lacks args key .number = some detail := by
  rw [← lacks_iff (requireInt_reads key)]
  unfold Args.requirePositiveInt
  cases args.requireInt key with
  | error e => exact iff_of_eq (by simp only [Except.error.injEq])
  | ok n =>
    refine iff_of_false (fun refused => ?_) nofun
    by_cases small : n ≤ 0
    · simp only [if_pos small] at refused
      exact notPositive_ne key (Except.error.inj refused)
    · simp only [if_neg small] at refused
      cases refused

/-! Which calls are refused with a text. -/

section

variable {S : Contract.Seam} {e : String} {w : Handler.World S} {t : Nat} {token : Bool}
  {backend : Option (BpRequest → Answer)}

theorem refused_start {r : Except String StartArgs}
    (guard : Admitted w.session (.system (.start r))) :
    Refused e w t token backend (.system (.start r)) ↔ r = .error e := by
  have guarded : w.session.checkState [.idle] = .ok () := guard
  cases r with
  | error e' =>
    simp [Refused, Tool.entry, Pc.next, StartPc.next, guarded, Handler.return_, Pc.ofGoto]
  | ok args =>
    simp [Refused, Tool.entry, Pc.next, StartPc.next, guarded, Handler.goTo, Pc.ofGoto]

theorem not_refused_disconnect {terminate : Bool}
    (guard : Admitted w.session (.system (.disconnect terminate))) :
    ¬ Refused e w t token backend (.system (.disconnect terminate)) := by
  have guarded : w.session.checkState [.configuring, .stopped, .running, .terminated] = .ok () :=
    guard
  simp [Refused, Tool.entry, Pc.next, DisconnectPc.next, guarded, Handler.goTo, Pc.ofGoto]

theorem not_refused_resume {a : ResumeArgs} (guard : Admitted w.session (.system (.resume a))) :
    ¬ Refused e w t token backend (.system (.resume a)) := by
  have guarded : w.session.checkState [.stopped] = .ok () := guard
  simp [Refused, Tool.entry, Pc.next, ResumePc.next, guarded, Handler.goTo, Pc.ofGoto]

theorem not_refused_pause (guard : Admitted w.session (.system .pause)) :
    ¬ Refused e w t token backend (.system .pause) := by
  have guarded : w.session.checkState [.running] = .ok () := guard
  simp [Refused, Tool.entry, Pc.next, PausePc.next, guarded, Handler.goTo, Pc.ofGoto]

theorem refused_of_change {tool : BpTool} (guard : Admitted w.session (.breakpoints tool))
    (fails : tool.change w.session = .error e) :
    Refused e w t token backend (.breakpoints tool) := by
  have guarded : w.session.checkState tool.allowed = .ok () := guard
  change tool.handle w.session backend = _
  unfold BpTool.handle
  rw [guarded, fails]

/-- Once a call has its change, what it returns without a request is no error but that of a missing
backend. -/
theorem Refused.change {tool : BpTool} (refused : Refused e w t token backend (.breakpoints tool))
    (guard : Admitted w.session (.breakpoints tool))
    (other : ∀ target : Target, target.opError.requestFailed ≠ e) :
    tool.change w.session = .error e := by
  have guarded : w.session.checkState tool.allowed = .ok () := guard
  have here : tool.handle w.session backend = ⟨.error e, w.session, none⟩ := refused
  unfold BpTool.handle at here
  rw [guarded] at here
  cases asks : tool.change w.session with
  | error e' =>
    rw [asks] at here
    cases here
    rfl
  | ok change =>
    simp only [asks] at here
    split at here
    · cases change <;> cases congrArg Handled.outcome here
    · cases backend with
      | none => exact absurd (ToolOutcome.error.inj (congrArg Handled.outcome here)) (other _)
      | some answer =>
        -- past this point the request is sent
        simp only at here
        split at here
        · cases congrArg Handled.sent here
        · split at here
          · cases congrArg Handled.sent here
          · split at here <;> cases congrArg Handled.sent here

theorem requestFailed_ne (target : Target) :
    target.opError.requestFailed ≠ missingRequired detail := by
  cases target with
  | file path =>
    change OpError.setBreakpoints.requestFailed ≠ _
    exact missingRequired_ne (by decide)
  | functions => exact missingRequired_ne (by decide)

theorem refused_setBreakpoint {file : Except String String} {line : Except String Int}
    {condition : String}
    (guard : Admitted w.session (.breakpoints (.setBreakpoint file line condition))) :
    Refused (missingRequired detail) w t token backend
        (.breakpoints (.setBreakpoint file line condition)) ↔
      file = .error (missingRequired detail) ∨
        ∃ path, file = .ok path ∧ line = .error (missingRequired detail) := by
  constructor
  · intro refused
    have change := refused.change guard requestFailed_ne
    cases file with
    | error e => exact .inl (congrArg Except.error (Except.error.inj change))
    | ok path =>
      cases line with
      | error e => exact .inr ⟨path, rfl, congrArg Except.error (Except.error.inj change)⟩
      | ok n => cases change
  · rintro (rfl | ⟨path, rfl, rfl⟩)
    · exact refused_of_change guard rfl
    · exact refused_of_change guard rfl

theorem refused_setFunctionBreakpoint {name : Except String String} {condition : String}
    (guard : Admitted w.session (.breakpoints (.setFunctionBreakpoint name condition))) :
    Refused (missingRequired detail) w t token backend
        (.breakpoints (.setFunctionBreakpoint name condition)) ↔
      name = .error (missingRequired detail) := by
  constructor
  · intro refused
    have change := refused.change guard requestFailed_ne
    cases name with
    | error e => exact congrArg Except.error (Except.error.inj change)
    | ok n => cases change
  · rintro rfl
    exact refused_of_change guard rfl

theorem refused_removeBreakpoint {id : Except String Int}
    (guard : Admitted w.session (.breakpoints (.removeBreakpoint id))) :
    Refused (missingRequired detail) w t token backend (.breakpoints (.removeBreakpoint id)) ↔
      id = .error (missingRequired detail) := by
  constructor
  · intro refused
    have change := refused.change guard requestFailed_ne
    cases id with
    | error e => exact congrArg Except.error (Except.error.inj change)
    | ok n =>
      cases known : w.session.breakpointInfo n with
      | some info =>
        rw [BpTool.change, known] at change
        cases change
      | none =>
        rw [BpTool.change, known] at change
        exact absurd (Except.error.inj change) (keyed_ne_missingRequired _ _ rfl (by decide))
  · rintro rfl
    exact refused_of_change guard rfl

theorem threadId_ne : args.explicitPositiveThreadId ≠ .error (missingRequired detail) := by
  unfold Args.explicitPositiveThreadId
  split
  · split
    · exact fun same => notPositive_ne "thread_id" (Except.error.inj same)
    · exact nofun
  · exact nofun

/-- A backend all of whose requests time out. -/
def timingOut : Inspector where
  stackTrace _ _ _ := .error .timeout
  scopes _ := .error .timeout
  fetch _ := .error .timeout
  evaluate _ _ := .error .timeout

/-- What an inspection that is refused comes to when its requests, if it makes any, time out. -/
theorem refused_timingOut {handle : (String → String) → SessionManager → Option Inspector →
    ToolOutcome × SessionManager} (refused : Refused e w t token backend (.inspection handle)) :
    (handle id w.session (backend.map fun _ => timingOut)).1 = .error e :=
  congrArg Prod.fst (refused id _ Option.isSome_map)

theorem not_refused_backtrace (guard : w.session.checkState [.stopped] = .ok ()) :
    ¬ Refused (missingRequired detail) w t token backend
      (.inspection fun _ m backend => handleBacktrace m args backend) := by
  intro refused
  have here := refused_timingOut refused
  unfold handleBacktrace resolveBacktraceThreadId at here
  rw [guard] at here
  cases explicit : args.explicitPositiveThreadId with
  | error e =>
    rw [explicit] at here
    obtain rfl := ToolOutcome.error.inj here
    exact threadId_ne explicit
  | ok threadId =>
    rw [explicit] at here
    cases backend with
    | none =>
      have text : OpError.stackTrace.requestFailed = missingRequired detail := by
        cases threadId <;> exact ToolOutcome.error.inj here
      exact missingRequired_ne (by decide) text
    | some answer =>
      have text : OpError.stackTrace.render .timeout = missingRequired detail := by
        cases threadId <;> exact ToolOutcome.error.inj here
      exact missingRequired_ne (by decide) text

/-- An inspection whose requests time out fails with another text, whether it asks for its frame or
finds it in the map. -/
theorem withFrame_ne {read : Inspector → Int → ToolOutcome}
    (reads : ∀ frameId, read timingOut frameId ≠ .error (missingRequired detail)) :
    (withFrame w.session args (backend.map fun _ => timingOut) read).1 ≠
      .error (missingRequired detail) := by
  cases backend with
  | none => exact fun same => missingRequired_ne (by decide) (ToolOutcome.error.inj same)
  | some answer =>
    simp only [Option.map_some, withFrame, resolveFrameId]
    cases w.session.frameMapping.lookup (frameIndex args) with
    | none => exact fun same => missingRequired_ne (by decide) (ToolOutcome.error.inj same)
    | some frameId => exact reads frameId

theorem not_refused_variables (guard : w.session.checkState [.stopped] = .ok ()) :
    ¬ Refused (missingRequired detail) w t token backend
      (.inspection fun toLowercase m backend => handleVariables toLowercase m args backend) := by
  intro refused
  have here := refused_timingOut refused
  unfold handleVariables at here
  rw [guard] at here
  exact withFrame_ne
    (fun _ same => missingRequired_ne (by decide) (ToolOutcome.error.inj same)) here

theorem refused_evaluate (guard : w.session.checkState [.stopped] = .ok ()) :
    Refused (missingRequired detail) w t token backend
        (.inspection fun _ m backend => handleEvaluate m args backend) ↔
      args.requireString "expression" = .error (missingRequired detail) := by
  constructor
  · intro refused
    have here := refused_timingOut refused
    unfold handleEvaluate at here
    rw [guard] at here
    cases read : args.requireString "expression" with
    | error e =>
      rw [read] at here
      exact congrArg Except.error (ToolOutcome.error.inj here)
    | ok expression =>
      rw [read] at here
      exact absurd here (withFrame_ne fun _ same =>
        missingRequired_ne (by decide) (ToolOutcome.error.inj same))
  · intro read toLowercase inspector _
    simp only [handleEvaluate, guard, read]

theorem refused_readMemory :
    Refused (missingRequired detail) w t token backend (.reading (handleReadMemory args)) ↔
    args.requireString "address" = .error (missingRequired detail) ∨
      ∃ address, args.requireString "address" = .ok address ∧
        args.requirePositiveInt "count" = .error (missingRequired detail) := by
  constructor
  · rintro ⟨rest, run, out⟩
    cases run
    cases address : args.requireString "address" with
    | error e =>
      rw [address] at out
      cases out
      exact .inl rfl
    | ok text =>
      cases count : args.requirePositiveInt "count" with
      | error e =>
        rw [address, count] at out
        cases out
        exact .inr ⟨text, rfl, rfl⟩
      | ok n =>
        rw [address, count] at out
        cases out
  · rintro (address | ⟨text, address, count⟩)
    · refine ⟨_, rfl, ?_⟩
      rw [address]
      rfl
    · refine ⟨_, rfl, ?_⟩
      rw [address, count]
      rfl

theorem refused_runCommand :
    Refused (missingRequired detail) w t token backend (.reading (handleRunCommand args)) ↔
    args.requireString "command" = .error (missingRequired detail) := by
  constructor
  · rintro ⟨rest, run, out⟩
    cases run
    cases command : args.requireString "command" with
    | error e =>
      rw [command] at out
      cases out
      rfl
    | ok text =>
      rw [command] at out
      cases out
  · intro command
    refine ⟨_, rfl, ?_⟩
    rw [command]
    rfl

theorem not_refused_threads : ¬ Refused e w t token backend (.reading handleThreads) := by
  rintro ⟨rest, run, out⟩
  cases run
  cases out

theorem not_refused_disassemble :
    ¬ Refused e w t token backend (.reading (handleDisassemble args)) := by
  rintro ⟨rest, run, out⟩
  cases run
  cases out

end

variable {serde : Serde} {key : String}

theorem asObject_ne (text : String) : asObject key ++ text ≠ missingRequired detail := by
  unfold asObject
  rw [String.append_assoc]
  exact keyed_ne_missingRequired key _ rfl (by decide)

theorem parseJsonArray_ne : args.parseJsonArray serde key ≠ .error (missingRequired detail) := by
  unfold Args.parseJsonArray
  split
  · exact nofun
  · intro same
    rename_i text _
    cases parsed : serde.array text with
    | error e =>
      rw [parsed] at same
      have text : "failed to parse '" ++ key ++ "' as JSON array: " ++ e = missingRequired detail :=
        Except.error.inj same
      rw [String.append_assoc] at text
      exact keyed_ne_missingRequired key _ rfl (by decide) text
    | ok texts =>
      rw [parsed] at same
      cases same
  · exact fun same => keyed_ne_missingRequired key _ rfl (by decide) (Except.error.inj same)

theorem stringFields_ne (fields : List (String × Argument)) :
    stringFields key fields ≠ .error (missingRequired detail) := by
  induction fields with
  | nil => exact nofun
  | cons field rest ih =>
    obtain ⟨k, v⟩ := field
    cases v with
    | string s =>
      intro same
      unfold stringFields at same
      cases read : stringFields key rest with
      | error e =>
        rw [read] at same
        exact ih (read.trans (congrArg Except.error (Except.error.inj same)))
      | ok fields =>
        rw [read] at same
        cases same
    | null | bool | number | array | object =>
      intro same
      have text := Except.error.inj same
      rw [String.append_assoc, String.append_assoc] at text
      exact asObject_ne _ text

theorem parseJsonObject_ne : args.parseJsonObject serde key ≠ .error (missingRequired detail) := by
  unfold Args.parseJsonObject
  split
  · exact nofun
  · intro same
    rename_i text _
    cases parsed : serde.object text with
    | error e =>
      rw [parsed] at same
      exact asObject_ne e (Except.error.inj same)
    | ok fields =>
      rw [parsed] at same
      exact stringFields_ne fields same
  · exact fun same => keyed_ne_missingRequired key _ rfl (by decide) (Except.error.inj same)

theorem launchArgs_refused : launchArgs serde args = .error (missingRequired detail) ↔
    args.requireString "program" = .error (missingRequired detail) := by
  unfold launchArgs
  cases program : args.requireString "program" with
  | error e => exact iff_of_eq (by simp only [bind, Except.bind, Except.error.injEq])
  | ok path =>
    refine iff_of_false (fun same => ?_) nofun
    cases array : args.parseJsonArray serde "args" with
    | error e =>
      rw [array] at same
      exact parseJsonArray_ne (array.trans (congrArg Except.error (Except.error.inj same)))
    | ok texts =>
      cases object : args.parseJsonObject serde "env" with
      | error e =>
        rw [array, object] at same
        exact parseJsonObject_ne (object.trans (congrArg Except.error (Except.error.inj same)))
      | ok fields =>
        rw [array, object] at same
        cases same

theorem attachArgs_ne : attachArgs args ≠ .error (missingRequired detail) := by
  have other {text : String} (head : text.toList.head? ≠ some 'm') :
      (Except.error text : Except String StartArgs) ≠ .error (missingRequired detail) :=
    fun same => missingRequired_ne head (Except.error.inj same)
  unfold attachArgs
  split
  · split
    · exact other (by decide)
    · exact nofun
  · exact other (by decide)
  · split
    · intro same
      dsimp only at same
      split at same
      · split at same
        · exact other (by decide) same
        · cases same
      · exact other (by decide) same
    · exact other (by decide)

/-- The required properties that are advertised under a name. -/
def required (name : String) : List (String × PropType) :=
  ((((getTool name).map ToolDef.props).getD []).filter Property.required).map
    fun p => (p.name, p.ty)

theorem lacking_eq {name : String} {tool : ToolDef} (known : getTool name = some tool) :
    lacking tool.props args = (required name).findSome? fun p => lacks args p.1 p.2 := by
  unfold lacking required
  rw [known, List.findSome?_map]
  rfl

theorem lacks_nothing {name : String} (nothing : required name = []) :
    ((required name).findSome? fun p => lacks args p.1 p.2) ≠ some detail := by
  rw [nothing]
  exact nofun

theorem lacks_one {name : String} {ty : PropType} (one : required name = [(key, ty)]) :
    lacks args key ty = some detail ↔
      ((required name).findSome? fun p => lacks args p.1 p.2) = some detail := by
  rw [one, List.findSome?_singleton]

theorem lacks_two {name first second : String}
    (two : required name = [(first, .string), (second, .number)]) :
    (args.requireString first = .error (missingRequired detail) ∨
        ∃ s, args.requireString first = .ok s ∧
          args.requirePositiveInt second = .error (missingRequired detail)) ↔
      ((required name).findSome? fun p => lacks args p.1 p.2) = some detail := by
  have reads : (lacks args first .string).elim _ _ := requireString_reads first
  rw [two, lacks_iff reads, requirePositiveInt_refused, List.findSome?_cons]
  cases lack : lacks args first .string with
  | none =>
    rw [lack] at reads
    obtain ⟨s, read⟩ := reads
    simp [read]
  | some text =>
    rw [lack] at reads
    have read : args.requireString first = .error (missingRequired text) := reads
    simp [read]

end

/-- Past its guard, in every state, a call is refused for a missing parameter exactly if one of the
properties that its tool advertises as required is missing, or is not of the advertised type; the
text is about the first of them. -/
theorem required_refused (serde : Serde) {name : String} (args : Args) {tool : ToolDef}
    (known : getTool name = some tool) (detail : String) {S : Contract.Seam}
    (w : Handler.World S) (t : Nat) (token : Bool) (backend : Option (BpRequest → Answer))
    (guard : Admitted w.session (dispatch serde name args)) :
    Refused (missingRequired detail) w t token backend (dispatch serde name args) ↔
      lacking tool.props args = some detail := by
  rw [lacking_eq known]
  revert guard
  unfold dispatch
  -- the tools in the order of the dispatcher
  split
  case h_1 =>
    exact fun guard => (refused_start guard).trans
      (launchArgs_refused.trans ((lacks_iff (requireString_reads _)).trans (lacks_one rfl)))
  case h_2 =>
    exact fun guard => (refused_start guard).trans (iff_of_false attachArgs_ne (lacks_nothing rfl))
  case h_3 => exact fun guard => iff_of_false (not_refused_disconnect guard) (lacks_nothing rfl)
  case h_4 => exact fun guard => (refused_setBreakpoint guard).trans (lacks_two rfl)
  case h_5 =>
    exact fun guard => (refused_setFunctionBreakpoint guard).trans
      ((lacks_iff (requireString_reads _)).trans (lacks_one rfl))
  case h_6 =>
    exact fun guard => (refused_removeBreakpoint guard).trans
      ((lacks_iff (requireInt_reads _)).trans (lacks_one rfl))
  case h_8 | h_9 | h_10 | h_11 =>
    all_goals exact fun guard => iff_of_false (not_refused_resume guard) (lacks_nothing rfl)
  case h_12 => exact fun guard => iff_of_false (not_refused_pause guard) (lacks_nothing rfl)
  case h_14 => exact fun guard => iff_of_false (not_refused_backtrace guard) (lacks_nothing rfl)
  case h_15 => exact fun _ => iff_of_false not_refused_threads (lacks_nothing rfl)
  case h_16 => exact fun guard => iff_of_false (not_refused_variables guard) (lacks_nothing rfl)
  case h_17 =>
    exact fun guard => (refused_evaluate guard).trans
      ((lacks_iff (requireString_reads _)).trans (lacks_one rfl))
  case h_19 => exact fun _ => refused_readMemory.trans (lacks_two rfl)
  case h_20 => exact fun _ => iff_of_false not_refused_disassemble (lacks_nothing rfl)
  case h_21 =>
    exact fun _ => refused_runCommand.trans
      ((lacks_iff (requireString_reads _)).trans (lacks_one rfl))
  case h_22 =>
    have named := mem_of_getTool known
    simp only [List.mem_cons, List.not_mem_nil, or_false] at named
    grind
  all_goals exact fun _ => iff_of_false id (lacks_nothing rfl)

/-- A stopped session, and a backend that answers with no breakpoint. -/
def stoppedWorld : Handler.World Contract.lldb :=
  ⟨{ SessionManager.new with state := .stopped }, some 0, fun _ => none, fun _ => none⟩

/-- A breakpoint call with these arguments is refused for its missing line. -/
def lineMissing (args : Args) : Prop :=
  Refused (missingRequired "required argument \"line\" not found") stoppedWorld 0 false
    (some fun _ => .ok []) (dispatch unreadable "set_breakpoint" args)

/-- A breakpoint without a line is refused, one with a file and a line is not. -/
theorem required_refused_line : lineMissing ⟨AList.singleton "file" (.string "a.c")⟩ ∧
    ¬ lineMissing ⟨(AList.singleton "file" (.string "a.c")).insert "line" (.number 3)⟩ := by
  have guard (args : Args) :
      Admitted stoppedWorld.session (dispatch unreadable "set_breakpoint" args) := rfl
  exact ⟨(required_refused unreadable _ rfl _ stoppedWorld 0 false _ (guard _)).mpr (by decide),
    (required_refused unreadable _ rfl _ stoppedWorld 0 false _ (guard _)).not.mpr (by decide)⟩

end LldbDebugMcp.Server.Required
