/- module: LldbDebugMcp/Server/Provenance
   source: crates/mcp-session/src/{pump,manager}.rs, crates/mcp-tools/src/handlers/execution.rs
   digest: Which session the entries of the output buffer come from, and which call drains them. -/

import LldbDebugMcp.Server.Lldb

set_option autoImplicit false
set_option relaxedAutoImplicit false

namespace LldbDebugMcp.Server.Provenance

open LldbDebugMcp.Client.Message
open LldbDebugMcp.Library.Transition
open LldbDebugMcp.Session.Output
open LldbDebugMcp.Session.Manager
open LldbDebugMcp.Session.Operation
open LldbDebugMcp.Server.Contract
open LldbDebugMcp.Server.Response
open LldbDebugMcp.Server.Handler
open LldbDebugMcp.Server.Execution
open LldbDebugMcp.Server.System
open LldbDebugMcp.Server.Steps
open LldbDebugMcp.Server.Lldb

/-- The server, and the `read_output` calls between their guard and their drain. A session lasts
from one reset to the next; all but `server` and the domain of `readers` is history. -/
structure Traced (S : Seam) where
  server : ToolServer S
  /-- The current session: how many resets there have been. -/
  epoch : Nat
  /-- The session in which a task was called. -/
  calledIn : Nat → Nat
  /-- The session of a connection: the one in which its event pump was bound. -/
  home : Nat → Nat
  /-- The buffered entries, each with the session of the connection that emitted it. -/
  tagged : List (OutputEntry × Nat)
  /-- A reset has moved the epoch, and has yet to clear what the buffer held then. -/
  leftover : Bool
  /-- The session of each `read_output` call that has passed its guard. -/
  readers : Nat → Option Nat

inductive TracedAction (S : Seam) where
  | server (a : System.Action S)
  /-- The guard of `handle_read_output`. -/
  | readOutput (r : Nat)
  /-- Its drain. -/
  | drainOutput (r : Nat)

def isDrain : SessionOp → Bool
  | .drainOutput => true
  | _ => false

def isAppend : SessionOp → Bool
  | .appendOutput .. => true
  | _ => false

namespace Traced

variable {S : Seam}

def new : Traced S where
  server := ToolServer.new
  epoch := 0
  calledIn _ := 0
  home _ := 0
  tagged := []
  leftover := false
  readers _ := none

/-- What becomes of the tags with a session write, after which `left` entries are buffered: the
oldest are evicted. -/
def track (s : Traced S) (source left : Nat) : Option SessionOp → Traced S
  | some .resetInner =>
    { s with epoch := s.epoch + 1, leftover := s.leftover || !s.tagged.isEmpty }
  | some .resetOutput | some .drainOutput => { s with tagged := [], leftover := false }
  | some (.appendOutput category text) =>
    let tagged := s.tagged ++ [(⟨category, text⟩, source)]
    { s with tagged := tagged.drop (tagged.length - left) }
  | _ => s

/-- The session of the connection whose events the step handles. -/
def source (s : Traced S) : System.Action S → Nat
  | .pump c _ => s.home c
  | _ => 0

def serverStep (s : Traced S) (a : System.Action S) : Option (Traced S) :=
  (s.server.step a).map fun server =>
    { s.track (s.source a) server.session.output.entries.length (stepOperation s.server a) with
      server := server
      calledIn := match a with
        | .call t _ => Function.update s.calledIn t s.epoch
        | _ => s.calledIn
      home := match a with
        | .task t _ =>
          if (s.server.tasks t).any Pc.binds then Function.update s.home t s.epoch else s.home
        | _ => s.home }

def step (s : Traced S) : TracedAction S → Option (Traced S)
  | .server (.bookkeeping .drainOutput) => none
  | .server a => s.serverStep a
  | .readOutput r =>
    match s.readers r with
    | some _ => none
    | none =>
      match s.server.session.checkState [.configuring, .stopped, .running, .terminated] with
      | .error _ => some s
      | .ok _ => some { s with readers := Function.update s.readers r (some s.epoch) }
  | .drainOutput r =>
    (s.readers r).bind fun _ => (s.server.step (.bookkeeping .drainOutput)).map fun server =>
      { s with
        server := server
        tagged := []
        leftover := false
        readers := Function.update s.readers r none }

end Traced

section

variable {S : Seam}

/-- The next step of the task drains the buffer for its response. -/
def drains (s : ToolServer S) (t : Nat) : Bool := (taskOperation s t).any isDrain

/-- The session of the call that drains the buffer in this step. -/
def drainedFor (s : Traced S) : TracedAction S → Option Nat
  | .server (.task t _) => if drains s.server t then some (s.calledIn t) else none
  | .drainOutput r => s.readers r
  | _ => none

/-- The entries that a response returns were emitted by the connection of the session that the
call belongs to. -/
def ReturnsOwn (s : Traced S) (a : TracedAction S) : Prop :=
  ∀ q, drainedFor s a = some q → ∀ e ∈ s.tagged, e.2 = q

/-- No continue or step that was called in an earlier session drains the entries of a later
one. -/
def NeverLate (s : Traced S) (a : TracedAction S) : Prop :=
  ∀ t choice, a = .server (.task t choice) → drains s.server t = true →
    ∀ e ∈ s.tagged, ¬ s.calledIn t < e.2

structure Own (s : Traced S) (a : TracedAction S) : Prop where
  buffered : s.tagged.map Prod.fst = s.server.session.output.entries
  returned : ReturnsOwn s a
  drained : NeverLate s a

/-- An event pump appends output only while the session of its connection is the current one,
and a call drains a buffer that is not empty only while its session is the current one, and not
while a reset has yet to clear the buffer of what it found there. -/
def Clean (s : Traced S) : TracedAction S → Prop
  | .server (.pump c which) =>
    (stepOperation s.server (.pump c which)).any isAppend = true → s.home c = s.epoch
  | a => match drainedFor s a with
    | some q => s.tagged = [] ∨ (q = s.epoch ∧ s.leftover = false)
    | none => True

instance (s : Traced S) : (a : TracedAction S) → Decidable (Clean s a)
  | .server (.pump _ _) => inferInstanceAs (Decidable (_ → _ = _))
  | .server (.task t choice) =>
    match for_ : drainedFor s (.server (.task t choice)) with
    | some q => decidable_of_iff (s.tagged = [] ∨ (q = s.epoch ∧ s.leftover = false))
      (by simp only [Clean, for_])
    | none => .isTrue (by simp only [Clean, for_])
  | .drainOutput r =>
    match for_ : drainedFor s (.drainOutput r) with
    | some q => decidable_of_iff (s.tagged = [] ∨ (q = s.epoch ∧ s.leftover = false))
      (by simp only [Clean, for_])
    | none => .isTrue (by simp only [Clean, for_])
  | .server (.call _ _) | .server (.cancelToken _) | .server (.conn _ _)
  | .server (.bookkeeping _) | .readOutput _ => .isTrue trivial

/-- The response of a continue or a step carries what it drained. -/
theorem drained_response {s s' : ToolServer S} {t : Nat} {choice : Choice S}
    (taken : s.step (.task t choice) = some s') (draining : drains s t = true) :
    ∃ fields, s'.tasks t =
      some (.done (.json (.object (mergeOutput fields s.session.output.drain.1)))) := by
  have operation : taskOperation s t = some .drainOutput := by
    obtain ⟨op, writes, is_drain⟩ := (Option.any_eq_true _ _).mp draining
    cases op with
    | drainOutput => exact writes
    | _ => cases is_drain
  rcases drain_cases operation with ⟨g, info, at_⟩ | ⟨g, code, at_⟩ <;>
    obtain ⟨n, next, rfl⟩ := resume_next taken at_ <;> cases choice <;>
    simp only [ResumePc.next, reduceCtorEq] at next <;>
    cases next <;> exact ⟨_, Function.update_self ..⟩

/-! The tags. -/

variable {s s' : Traced S}

/-- The tags belong to the buffered entries. -/
def Tagged (s : Traced S) : Prop := s.tagged.map Prod.fst = s.server.session.output.entries

/-- What a buffer that no reset has left over holds is of the current session. -/
def Current (s : Traced S) : Prop := s.leftover = false → ∀ e ∈ s.tagged, e.2 = s.epoch

private theorem tagged_track {source : Nat} {op : Option SessionOp} (tagged : Tagged s)
    (unread : op ≠ some (.bookkeeping .drainOutput)) :
    (s.track source (applyOption s.server.session op).output.entries.length op).tagged.map
      Prod.fst = (applyOption s.server.session op).output.entries := by
  have kept : ∀ op : SessionOp, op.touchesOutput = false →
      s.tagged.map Prod.fst = (op.apply s.server.session).output.entries := fun op outside => by
    rw [apply_output outside]
    exact tagged
  cases op with
  | none => exact tagged
  | some op =>
    cases op with
    | appendOutput category text =>
      have suffix := OutputBuffer.append_suffix s.server.session.output category text
      have all : (s.tagged ++ [((⟨category, text⟩ : OutputEntry), source)]).map Prod.fst =
          s.server.session.output.entries ++ [⟨category, text⟩] := by
        rw [List.map_append, tagged]
        rfl
      have length := congrArg List.length all
      rw [List.length_map] at length
      simp only [Traced.track, List.map_drop, applyOption, SessionOp.apply]
      rw [all, length]
      exact (List.suffix_iff_eq_drop.mp suffix).symm
    | resetOutput | drainOutput => exact (OutputBuffer.drain_entries _).symm
    | bookkeeping b =>
      cases b with
      | drainOutput => exact absurd rfl unread
      | _ => exact kept _ rfl
    | _ => exact kept _ rfl

private theorem unread_of_step {a : System.Action S} {b : Traced S}
    (taken : s.step (.server a) = some b) :
    s.serverStep a = some b ∧ stepOperation s.server a ≠ some (.bookkeeping .drainOutput) := by
  cases a with
  | bookkeeping op =>
    cases op with
    | drainOutput => cases taken
    | _ => exact ⟨taken, fun h => by cases h⟩
  | _ =>
    refine ⟨taken, fun writes => ?_⟩
    rcases stepOperation_cases writes with ⟨t, choice, -, eq⟩ | ⟨c, which, g, event, -, eq⟩ |
      ⟨b, h, -⟩
    · obtain ⟨pc, -, eq⟩ := Option.bind_eq_some_iff.mp eq
      exact operation_ne_bookkeeping eq
    · cases event <;> cases eq
    · cases h

/-- What a step that takes the server on does to the tags. -/
private theorem serverStep_eq {a : System.Action S} (taken : s.serverStep a = some s') :
    s'.tagged = (s.track (s.source a) s'.server.session.output.entries.length
      (stepOperation s.server a)).tagged ∧
    s'.epoch = (s.track (s.source a) s'.server.session.output.entries.length
      (stepOperation s.server a)).epoch ∧
    s'.leftover = (s.track (s.source a) s'.server.session.output.entries.length
      (stepOperation s.server a)).leftover ∧
    s'.server.session = applyOption s.server.session (stepOperation s.server a) := by
  obtain ⟨server, stepped, rfl⟩ := Option.map_eq_some_iff.mp taken
  exact ⟨rfl, rfl, rfl, step_session stepped⟩

theorem tagged_step {a : TracedAction S} (tagged : Tagged s) (taken : s.step a = some s') :
    Tagged s' := by
  cases a with
  | server a =>
    obtain ⟨stepped, unread⟩ := unread_of_step taken
    obtain ⟨tags, -, -, session⟩ := serverStep_eq stepped
    rw [Tagged, tags, session]
    exact tagged_track tagged unread
  | readOutput r =>
    simp only [Traced.step] at taken
    split at taken
    · cases taken
    · split at taken <;> obtain rfl := Option.some.inj taken <;> exact tagged
  | drainOutput r =>
    obtain ⟨q, -, rest⟩ := Option.bind_eq_some_iff.mp taken
    obtain ⟨server, stepped, rfl⟩ := Option.map_eq_some_iff.mp rest
    change [] = server.session.output.entries
    rw [step_session stepped]
    exact (OutputBuffer.drain_entries _).symm

private theorem current_track {source left : Nat} {op : Option SessionOp} (current : Current s)
    (own : op.any isAppend = true → source = s.epoch) : Current (s.track source left op) := by
  cases op with
  | none => exact current
  | some op =>
    cases op with
    | resetInner =>
      intro cleared e mem
      simp only [Traced.track, Bool.or_eq_false_iff, Bool.not_eq_false'] at cleared
      have empty : s.tagged = [] := List.isEmpty_iff.mp cleared.2
      simp only [Traced.track, empty] at mem
      cases mem
    | resetOutput | drainOutput => exact fun _ e mem => by cases mem
    | appendOutput category text =>
      intro cleared e mem
      rcases List.mem_append.mp (List.mem_of_mem_drop mem) with old | new
      · exact current cleared e old
      · rw [List.mem_singleton.mp new]
        exact own rfl
    | _ => exact current

/-- Only an event pump appends. -/
private theorem appends_cases {a : System.Action S}
    (appends : (stepOperation s.server a).any isAppend = true) : ∃ c which, a = .pump c which := by
  obtain ⟨op, writes, append⟩ := (Option.any_eq_true _ _).mp appends
  rcases stepOperation_cases writes with ⟨t, choice, -, eq⟩ | ⟨c, which, -, -, rfl, -⟩ | ⟨b, -, rfl⟩
  · obtain ⟨pc, -, operation⟩ := Option.bind_eq_some_iff.mp eq
    cases op with
    | appendOutput =>
      cases pc with
      | start pc =>
        cases pc with
        | setPid plan outcome target => cases target <;> cases operation
        | _ => cases operation
      | disconnect pc | resume pc => cases pc <;> cases operation
      | pause | done => cases operation
    | _ => cases append
  · exact ⟨c, which, rfl⟩
  · cases append

/-- Under the condition the buffer holds output of the current session only, unless a reset has
left something over. -/
theorem current_step {a : TracedAction S} (current : Current s) (clean : Clean s a)
    (taken : s.step a = some s') : Current s' := by
  cases a with
  | server a =>
    obtain ⟨stepped, -⟩ := unread_of_step taken
    obtain ⟨tags, epoch, left, session⟩ := serverStep_eq stepped
    intro cleared e mem
    rw [tags] at mem
    rw [left] at cleared
    rw [epoch]
    refine current_track current (fun appends => ?_) cleared e mem
    rcases appends_cases appends with ⟨c, which, rfl⟩
    exact clean appends
  | readOutput r =>
    simp only [Traced.step] at taken
    split at taken
    · cases taken
    · split at taken <;> obtain rfl := Option.some.inj taken <;> exact current
  | drainOutput r =>
    obtain ⟨q, -, rest⟩ := Option.bind_eq_some_iff.mp taken
    obtain ⟨server, stepped, rfl⟩ := Option.map_eq_some_iff.mp rest
    exact fun _ e mem => by cases mem

private theorem own_of_clean {a : TracedAction S} (tagged : Tagged s) (current : Current s)
    (clean : Clean s a) : Own s a := by
  have returned : ReturnsOwn s a := by
    intro q for_ e mem
    have uncrossed : s.tagged = [] ∨ (q = s.epoch ∧ s.leftover = false) := by
      cases a with
      | server a =>
        cases a with
        | task t choice => simpa only [Clean, for_] using clean
        | _ => cases for_
      | drainOutput r => simpa only [Clean, for_] using clean
      | readOutput r => cases for_
    rcases uncrossed with empty | ⟨rfl, cleared⟩
    · rw [empty] at mem
      cases mem
    · exact current cleared e mem
  refine ⟨tagged, returned, fun t choice eq draining e mem => ?_⟩
  subst eq
  have mine := returned (s.calledIn t) (if_pos draining) e mem
  omega

/-- In every run in which no pump of an earlier session appends, and calls drain only what is
buffered for their own session, output stays in its session. -/
theorem output_stays {as : List (TracedAction S)} (run : Run Traced.step Clean Traced.new as s) :
    Run Traced.step Own Traced.new as s := by
  refine run.strengthen (I := fun s => Tagged s ∧ Current s) (fun s a s' inv clean taken => ?_)
    (fun s a s' inv clean _ => own_of_clean inv.1 inv.2 clean) ⟨rfl, fun _ e mem => by cases mem⟩
  exact ⟨tagged_step inv.1 taken, current_step inv.2 clean taken⟩

end

/-- A launch that stops at the entry, and prints. -/
def printing (t : Nat) : List (System.Action lldb) :=
  launchCall t true ++ handshake t true ++ launchStopped t ++
    [receive t (.event (.output ⟨"stdout", "hello"⟩))]

def onServer (as : List (System.Action lldb)) : List (TracedAction lldb) := as.map .server

/-- The output of a session that is not read, and that of the next one, which is. -/
def readNext : List (TracedAction lldb) :=
  onServer (printing 0 ++ [.pump 0 .output] ++ disconnected 1 0 5 ++ printing 2 ++
    [.pump 2 .output]) ++ [.readOutput 0]

theorem output_stays_readNext : ∃ s s' : Traced lldb,
    s.epoch = 1 ∧ s.tagged.map Prod.snd = [1] ∧ s.step (.drainOutput 0) = some s' ∧
    Run Traced.step Own Traced.new (readNext ++ [.drainOutput 0]) s' := by
  have eval : ((exec Traced.step Clean (Traced.new : Traced lldb) readNext).bind fun s =>
      (exec Traced.step Clean s [.drainOutput 0]).map fun _ =>
        (s.epoch, s.tagged.map Prod.snd)) = some (1, [1]) := by
    decide +kernel
  obtain ⟨s, first, rest⟩ := Option.bind_eq_some_iff.mp eval
  obtain ⟨s', last, eq⟩ := Option.map_eq_some_iff.mp rest
  obtain ⟨epoch, sources⟩ := Prod.mk.inj eq
  have drained := run_of_exec last
  refine ⟨s, s', epoch, sources, ?_, output_stays ((run_of_exec first).append drained)⟩
  cases drained with
  | cons _ taken rest =>
    cases rest
    exact taken

/-- The pump of the first session takes its chunk only in the second, where it is read. -/
def latePump : List (TracedAction lldb) :=
  onServer (printing 0 ++ disconnected 1 0 5 ++ printing 2 ++ [.pump 0 .output]) ++
    [.readOutput 0]

/-- A continue of the first session has its stop, and goes on with it in the second. -/
def lateContinue : List (TracedAction lldb) :=
  onServer (launchCall 0 true ++ handshake 0 true ++ launchStopped 0 ++
    [.call 1 (.resume ⟨.cont, .ok none, none⟩)] ++ proceed 1 5 ++ [poll 0 1] ++ write 0 1 ++
    [receive 0 (answer 5), poll 0 1, receive 0 (stoppedEvent "pause"), poll 0 1,
      .task 1 .reply] ++
    disconnected 2 0 6 ++ printing 3 ++ [.pump 3 .output, .task 1 .go])

/-- A run up to a step that does not meet a condition. -/
private theorem not_always {Q : Traced lldb → TracedAction lldb → Prop} {s s' : Traced lldb}
    {as : List (TracedAction lldb)} {a : TracedAction lldb}
    (first : Run Traced.step anyStep Traced.new as s) (taken : s.step a = some s')
    (fails : ¬ Q s a) :
    ¬ ∀ (as : List (TracedAction lldb)) (s : Traced lldb), Run Traced.step anyStep Traced.new as s →
      Run Traced.step Q Traced.new as s := by
  intro always
  have run := always _ s' (first.append (.single trivial taken))
  obtain ⟨m, before, last⟩ := run.split
  obtain rfl := before.last_eq first
  cases last with
  | cons allowed _ _ => exact fails allowed

/-- A chunk of the first session is returned by a call of the second, and a chunk of the second
by a continue of the first. -/
theorem output_crosses :
    (¬ ∀ (as : List (TracedAction lldb)) (s : Traced lldb),
      Run Traced.step anyStep Traced.new as s → Run Traced.step ReturnsOwn Traced.new as s) ∧
    ¬ ∀ (as : List (TracedAction lldb)) (s : Traced lldb),
      Run Traced.step anyStep Traced.new as s → Run Traced.step NeverLate Traced.new as s := by
  constructor
  · have eval : ((exec Traced.step anyStep (Traced.new : Traced lldb) latePump).bind fun s =>
        (s.step (.drainOutput 0)).map fun _ => (s.readers 0, s.tagged.map Prod.snd)) =
        some (some 1, [0]) := by
      decide +kernel
    obtain ⟨s, first, rest⟩ := Option.bind_eq_some_iff.mp eval
    obtain ⟨s', taken, eq⟩ := Option.map_eq_some_iff.mp rest
    obtain ⟨reader, sources⟩ := Prod.mk.inj eq
    refine not_always (run_of_exec first) taken fun own => ?_
    obtain ⟨e, mem, source⟩ := List.mem_map.mp (sources ▸ List.mem_singleton_self 0)
    cases source.symm.trans (own 1 reader e mem)
  · have eval : ((exec Traced.step anyStep (Traced.new : Traced lldb) lateContinue).bind fun s =>
        (s.step (.server (.task 1 .go))).map fun _ =>
          (s.calledIn 1, drains s.server 1, s.tagged.map Prod.snd)) = some (0, true, [1]) := by
      decide +kernel
    obtain ⟨s, first, rest⟩ := Option.bind_eq_some_iff.mp eval
    obtain ⟨s', taken, eq⟩ := Option.map_eq_some_iff.mp rest
    simp only [Prod.mk.injEq] at eq
    obtain ⟨called, draining, sources⟩ := eq
    refine not_always (run_of_exec first) taken fun punctual => ?_
    obtain ⟨e, mem, source⟩ := List.mem_map.mp (sources ▸ List.mem_singleton_self 1)
    have early := punctual 1 .go rfl draining e mem
    omega

end LldbDebugMcp.Server.Provenance
