/- module: LldbDebugMcp/Server/Frames
   source: crates/mcp-tools/src/frame.rs, handlers/{inspection,execution}.rs,
   crates/lldb-backend/src/body.rs
   digest: The frame map over a session's stops and calls: when a cached index is the frame of
   the stack, and when an index that a backtrace has listed keeps its frame. -/

import Mathlib.Data.List.Induction
import LldbDebugMcp.Library.Transition
import LldbDebugMcp.Server.Inspection

set_option autoImplicit false
set_option relaxedAutoImplicit false

namespace LldbDebugMcp.Server.Frames

open LldbDebugMcp.Core.Types
open LldbDebugMcp.Library.Transition
open LldbDebugMcp.Session.Manager
open LldbDebugMcp.Server.Arguments
open LldbDebugMcp.Server.Flatten (Fetcher)
open LldbDebugMcp.Server.Inspection
open LldbDebugMcp.Server.Response

/-- A frame of a `stackTrace` response. -/
structure StackFrame where
  id : Int
  name : String
  source : Option String
  line : Int
  instructionPointerReference : String
  deriving DecidableEq, Repr

def toFrame (index : Nat) (f : StackFrame) : Frame :=
  ⟨index, f.id, f.name, nonempty f.source, f.line, nonempty (some f.instructionPointerReference)⟩

/-- The frames of a response, numbered in order. -/
def numbered (stack : List StackFrame) : List Frame := stack.mapIdx toFrame

/-- The frame of an index. -/
def frameAt (stack : List StackFrame) (index : Int) : Option StackFrame :=
  if index < 0 then none else stack[index.toNat]?

/-- So many frames of a stack; none is all of them. -/
def upTo (levels : Int) (stack : List StackFrame) : List StackFrame :=
  if levels = 0 then stack else stack.take levels.toNat

/-- What the adapter answers to the requests of a call: to a `stackTrace` request either an error
or the stack that is there, with a total. -/
structure Reply where
  stackTrace : Except BackendError Int
  scopes : Int → Except BackendError (List Scope)
  fetch : Fetcher
  evaluate : String → Int → Except BackendError EvalResult

/-- The session with the process: the stack of each thread as of the stop, and the thread that the
frame map was made for last. -/
structure Debug where
  session : SessionManager
  stack : Int → List StackFrame
  owner : Int

def Debug.new : Debug := ⟨SessionManager.new, fun _ => [], 1⟩

/-- The backend of a call. -/
def Debug.inspector (s : Debug) (reply : Reply) : Inspector where
  stackTrace threadId start levels :=
    match reply.stackTrace with
    | .error e => .error e
    | .ok total => .ok (numbered (upTo levels ((s.stack threadId).drop start.toNat)), total)
  scopes := reply.scopes
  fetch := reply.fetch
  evaluate := reply.evaluate

/-- The calls that resolve a frame. -/
inductive FrameTool where
  | readVariables
  | evaluate
  deriving DecidableEq, Repr

section

variable (toLowercase : String → String)

def FrameTool.handle (m : SessionManager) (args : Args) (backend : Option Inspector) :
    FrameTool → ToolOutcome × SessionManager
  | .readVariables => handleVariables toLowercase m args backend
  | .evaluate => handleEvaluate m args backend

/-- The index that a call resolves. -/
def FrameTool.resolves (m : SessionManager) (args : Args) : FrameTool → Option Int
  | .readVariables => if m.state = .stopped then some (frameIndex args) else none
  | .evaluate =>
    if m.state = .stopped then (args.requireString "expression").toOption.map fun _ =>
      frameIndex args
    else none

inductive Action where
  /-- The process has stopped, and the handler that waited for it commits the stop. -/
  | stop (info : StopInfo) (stack : Int → List StackFrame)
  | resume
  | backtrace (args : Args) (reply : Reply)
  | call (tool : FrameTool) (args : Args) (reply : Reply)

/-- The thread that a backtrace makes the map for. -/
def backtraceOwner (m : SessionManager) (args : Args) (reply : Reply) : Option Int :=
  match m.checkState [.stopped], resolveBacktraceThreadId m args, reply.stackTrace with
  | .ok _, .ok threadId, .ok _ => some threadId
  | _, _, _ => none

/-- The thread that a call makes the map for, when its index is missing. -/
def callOwner (m : SessionManager) (index : Option Int) (reply : Reply) : Option Int :=
  match index, reply.stackTrace with
  | some index, .ok _ =>
    if (m.frameMapping.lookup index).isNone then some (stoppedThread m) else none
  | _, _ => none

def step (s : Debug) : Action → Option Debug
  | .stop info stack =>
    if s.session.state = .stopped then none
    else some { s with
      session := (s.session.setLastStopped info).setState .stopped
      stack := stack }
  | .resume =>
    if s.session.state = .stopped then some { s with session := s.session.setState .running }
    else none
  | .backtrace args reply => some { s with
      session := (handleBacktrace s.session args (some (s.inspector reply))).2
      owner := (backtraceOwner s.session args reply).getD s.owner }
  | .call tool args reply => some { s with
      session := (tool.handle toLowercase s.session args (some (s.inspector reply))).2
      owner := (callOwner s.session (tool.resolves s.session args) reply).getD s.owner }

end

/-- Frame ids depend on the thread and the index only. -/
def Granted (fid : Int → Int → Int) (_ : Debug) : Action → Prop
  | .stop _ stack => ∀ t index frame, frameAt (stack t) index = some frame → frame.id = fid t index
  | _ => True

/-- A condition on the frame resolutions of a run. -/
def Resolving (P : Debug → Reply → Int → Prop) (s : Debug) : Action → Prop
  | .call tool args reply =>
    ∀ index, tool.resolves s.session args = some index → P s reply index
  | _ => True

/-- The index comes to the frame of the thread that has stopped, or is out of range. -/
def Right (s : Debug) (reply : Reply) (index : Int) : Prop :=
  let resolved := (resolveFrameId (s.inspector reply) s.session index).1
  let here := frameAt (s.stack (stoppedThread s.session)) index
  (∀ id, resolved = .ok id → ∃ frame, here = some frame ∧ frame.id = id) ∧
  (here = none → ∀ total, reply.stackTrace = .ok total →
    ∃ count, resolved = .error (outOfRange index count))

/-- An index that is in the map is one of the stack, and the map was made for the thread that has
stopped, or for one whose frame of that index has the same id. -/
def Current (fid : Int → Int → Int) (s : Debug) (_ : Reply) (index : Int) : Prop :=
  s.session.frameMapping.lookup index ≠ none →
    fid s.owner index = fid (stoppedThread s.session) index ∧
    frameAt (s.stack (stoppedThread s.session)) index ≠ none

section

variable {toLowercase : String → String} {fid : Int → Int → Int} {s s' : Debug} {reply : Reply}
  {index : Int}

/-- The map that is made of a response, against the stack. -/
private theorem lookup_frameMap (stack : List StackFrame) (index : Int) :
    (frameMap (numbered stack)).lookup index = (frameAt stack index).map StackFrame.id := by
  induction stack using List.reverseRecOn with
  | nil =>
    unfold frameAt
    split <;> rfl
  | append_singleton stack f ih =>
    have grown : frameMap (numbered (stack ++ [f])) =
        (frameMap (numbered stack)).insert (stack.length : Int) f.id := by
      rw [numbered, List.mapIdx_concat, frameMap, List.foldl_append]
      rfl
    rw [grown]
    by_cases last : index = stack.length
    · subst last
      rw [AList.lookup_insert, frameAt, if_neg (by omega), Int.toNat_natCast]
      simp
    · rw [AList.lookup_insert_ne last, ih]
      unfold frameAt
      by_cases negative : index < 0
      · rw [if_pos negative, if_pos negative]
      · rw [if_neg negative, if_neg negative, List.getElem?_append]
        split
        · rfl
        · rw [List.getElem?_eq_none (by omega), List.getElem?_eq_none (by simp; omega)]

/-- A response of the adapter lists the frames of the stack alone. -/
private theorem frameAt_upTo {levels : Int} {stack : List StackFrame} {frame : StackFrame}
    (here : frameAt (upTo levels stack) index = some frame) : frameAt stack index = some frame := by
  unfold frameAt upTo at *
  split
  · rename_i negative
    rw [if_pos negative] at here
    cases here
  · rename_i natural
    rw [if_neg natural] at here
    split at here
    · exact here
    · rw [List.getElem?_take] at here
      split at here
      · exact here
      · cases here

/-- A resolution goes by the map, or else by the first frames of the stack. -/
private theorem resolved_hit {id : Int} (here : s.session.frameMapping.lookup index = some id) :
    resolveFrameId (s.inspector reply) s.session index = (.ok id, s.session) := by
  rw [resolveFrameId, here]

private theorem resolved_failed {e : BackendError}
    (missing : s.session.frameMapping.lookup index = none) (fails : reply.stackTrace = .error e) :
    resolveFrameId (s.inspector reply) s.session index =
      (.error (mapImplicitError e), s.session) := by
  rw [resolveFrameId, missing]
  simp only [Debug.inspector, fails]

/-- The frames that a resolution asks for. -/
def implicit (s : Debug) : List StackFrame := upTo 20 (s.stack (stoppedThread s.session))

/-- An index in these frames. -/
def resolved (stack : List StackFrame) (index : Int) : Except String Int :=
  match frameAt stack index with
  | some frame => .ok frame.id
  | none => .error (outOfRange index stack.length)

private theorem resolved_made {total : Int}
    (missing : s.session.frameMapping.lookup index = none) (ok : reply.stackTrace = .ok total) :
    resolveFrameId (s.inspector reply) s.session index =
      (resolved (implicit s) index,
        s.session.setFrameMapping (frameMap (numbered (implicit s)))) := by
  rw [resolveFrameId, missing]
  simp only [Debug.inspector, ok, Int.toNat_zero, List.drop_zero]
  rw [lookup_frameMap]
  change _ = (resolved (upTo 20 (s.stack (stoppedThread s.session))) index, _)
  unfold resolved
  cases frameAt (upTo 20 (s.stack (stoppedThread s.session))) index with
  | some frame => rfl
  | none =>
    simp only [Option.map_none, numbered, List.length_mapIdx]
    rfl

/-- The ids of the stacks, and of the map, are those of their threads. -/
structure Cached (fid : Int → Int → Int) (s : Debug) : Prop where
  stack : ∀ t index frame, frameAt (s.stack t) index = some frame → frame.id = fid t index
  map : ∀ index id, s.session.frameMapping.lookup index = some id → id = fid s.owner index

theorem right_iff_current (cached : Cached fid s) :
    Right s reply index ↔ Current fid s reply index := by
  cases here : s.session.frameMapping.lookup index with
  | some id =>
    have hit := @resolved_hit s reply index id here
    have is := cached.map index id here
    constructor
    · rintro ⟨found, -⟩ -
      obtain ⟨frame, there, same⟩ := found id (congrArg Prod.fst hit)
      have own := cached.stack _ _ _ there
      refine ⟨is.symm.trans (same.symm.trans own), ?_⟩
      rw [there]
      exact Option.some_ne_none frame
    · intro current
      obtain ⟨same, inside⟩ := current (by rw [here]; exact Option.some_ne_none id)
      refine ⟨fun id' ok => ?_, fun outside => absurd outside inside⟩
      obtain rfl : id = id' := Except.ok.inj ((congrArg Prod.fst hit).symm.trans ok)
      obtain ⟨frame, there⟩ := Option.ne_none_iff_exists'.mp inside
      exact ⟨frame, there, (cached.stack _ _ _ there).trans (same.symm.trans is.symm)⟩
  | none =>
    refine ⟨fun _ hit => absurd here hit, fun _ => ?_⟩
    cases answered : reply.stackTrace with
    | error e =>
      have missed := congrArg Prod.fst (resolved_failed here answered)
      refine ⟨fun id ok => ?_, fun _ total ok => ?_⟩
      · cases missed.symm.trans ok
      · rw [answered] at ok
        cases ok
    | ok total =>
      have made := congrArg Prod.fst (resolved_made here answered)
      simp only [resolved] at made
      refine ⟨fun id ok => ?_, fun outside _ _ => ?_⟩
      · cases there : frameAt (implicit s) index with
        | none =>
          rw [there] at made
          cases made.symm.trans ok
        | some frame =>
          rw [there] at made
          exact ⟨frame, frameAt_upTo there, Except.ok.inj (made.symm.trans ok)⟩
      · cases there : frameAt (implicit s) index with
        | none =>
          rw [there] at made
          exact ⟨_, made⟩
        | some frame =>
          rw [frameAt_upTo there] at outside
          cases outside

/-- The session after a call is that after its resolution. -/
private theorem handle_session (tool : FrameTool) (m : SessionManager) (args : Args)
    (backend : Inspector) : (tool.handle toLowercase m args (some backend)).2 =
      match tool.resolves m args with
      | some index => (resolveFrameId backend m index).2
      | none => m := by
  have framed : ∀ read, (withFrame m args (some backend) read).2 =
      (resolveFrameId backend m (frameIndex args)).2 := by
    intro read
    simp only [withFrame]
    split
    · rename_i e m' is
      rw [is]
    · rename_i id m' is
      rw [is]
  cases tool with
  | readVariables =>
    simp only [FrameTool.handle, FrameTool.resolves, handleVariables]
    cases guard : m.checkState [.stopped] with
    | error e =>
      have other : m.state ≠ .stopped := by simpa using SessionManager.checkState_error guard
      rw [if_neg other]
    | ok _ =>
      have stopped : m.state = .stopped := by simpa using SessionManager.checkState_ok.mp guard
      rw [if_pos stopped]
      exact framed _
  | evaluate =>
    simp only [FrameTool.handle, FrameTool.resolves, handleEvaluate]
    cases guard : m.checkState [.stopped] with
    | error e =>
      have other : m.state ≠ .stopped := by simpa using SessionManager.checkState_error guard
      rw [if_neg other]
    | ok _ =>
      have stopped : m.state = .stopped := by simpa using SessionManager.checkState_ok.mp guard
      rw [if_pos stopped]
      cases args.requireString "expression" with
      | error e => rfl
      | ok expression => exact framed _

/-- What a backtrace does to the map. -/
private theorem backtrace_session (s : Debug) (args : Args) (reply : Reply) :
    (handleBacktrace s.session args (some (s.inspector reply))).2 =
      match backtraceOwner s.session args reply with
      | some t => s.session.setFrameMapping
        (frameMap (numbered (upTo (backtraceLevels args) (s.stack t))))
      | none => s.session := by
  unfold handleBacktrace backtraceOwner
  cases s.session.checkState [.stopped] with
  | error e => rfl
  | ok _ =>
    cases resolveBacktraceThreadId s.session args with
    | error e => rfl
    | ok t =>
      simp only [Debug.inspector]
      cases reply.stackTrace with
      | error e => rfl
      | ok total => rfl

/-- What a call does to the map: it makes one of the first frames, when its index is missing. -/
private theorem call_session (s : Debug) (tool : FrameTool) (args : Args) (reply : Reply) :
    (tool.handle toLowercase s.session args (some (s.inspector reply))).2 =
      match callOwner s.session (tool.resolves s.session args) reply with
      | some _ => s.session.setFrameMapping (frameMap (numbered (implicit s)))
      | none => s.session := by
  rw [handle_session]
  cases tool.resolves s.session args with
  | none => rfl
  | some index =>
    simp only [callOwner]
    cases here : s.session.frameMapping.lookup index with
    | some id =>
      rw [resolved_hit here]
      cases reply.stackTrace with
      | error e => rfl
      | ok total => simp [here]
    | none =>
      cases answered : reply.stackTrace with
      | error e => rw [resolved_failed here answered]
      | ok total =>
        rw [resolved_made here answered]
        simp [here]

private theorem callOwner_eq {m : SessionManager} {index : Option Int} {t : Int}
    (owns : callOwner m index reply = some t) : t = stoppedThread m := by
  unfold callOwner at owns
  split at owns
  · split at owns
    · exact (Option.some.inj owns).symm
    · cases owns
  · cases owns

/-- A map that is made of a thread's stack has its ids. -/
private theorem cached_made {t levels : Int} (cached : Cached fid s)
    (is : s' = { s with
      session := s.session.setFrameMapping (frameMap (numbered (upTo levels (s.stack t))))
      owner := t }) : Cached fid s' := by
  subst is
  refine ⟨cached.stack, fun index id here => ?_⟩
  change (frameMap (numbered (upTo levels (s.stack t)))).lookup index = some id at here
  rw [lookup_frameMap] at here
  obtain ⟨frame, there, rfl⟩ := Option.map_eq_some_iff.mp here
  exact cached.stack t index frame (frameAt_upTo there)

private theorem cached_step {a : Action} (cached : Cached fid s) (granted : Granted fid s a)
    (taken : step toLowercase s a = some s') : Cached fid s' := by
  cases a with
  | stop info stack =>
    simp only [step] at taken
    split at taken
    · cases taken
    · obtain rfl := Option.some.inj taken
      exact ⟨granted, cached.map⟩
  | resume =>
    simp only [step] at taken
    split at taken
    · obtain rfl := Option.some.inj taken
      exact ⟨cached.stack, cached.map⟩
    · cases taken
  | backtrace args reply =>
    have is := Option.some.inj taken
    rw [backtrace_session] at is
    cases owner : backtraceOwner s.session args reply with
    | none =>
      rw [owner] at is
      exact is ▸ cached
    | some t =>
      rw [owner] at is
      exact cached_made cached is.symm
  | call tool args reply =>
    have is := Option.some.inj taken
    rw [call_session] at is
    cases owner : callOwner s.session (tool.resolves s.session args) reply with
    | none =>
      rw [owner] at is
      exact is ▸ cached
    | some t =>
      rw [owner] at is
      obtain rfl := callOwner_eq owner
      exact cached_made cached is.symm

theorem cached_run {as : List Action} (run : Run (step toLowercase) (Granted fid) .new as s) :
    Cached fid s := by
  refine run.keeps (fun _ _ _ cached granted taken => cached_step cached granted taken) ⟨?_, ?_⟩
  · intro t index frame here
    unfold frameAt at here
    split at here <;> cases here
  · intro index id here
    cases here

/-- In a run in which frame ids depend on the thread and the index, every resolution is right
exactly when each index that is found in the map is current. -/
theorem resolutions_right_iff (toLowercase : String → String) (fid : Int → Int → Int)
    (as : List Action) (s : Debug) (run : Run (step toLowercase) (Granted fid) .new as s) :
    Run (step toLowercase) (Resolving Right) .new as s ↔
      Run (step toLowercase) (Resolving (Current fid)) .new as s := by
  have cached₀ : Cached fid .new := cached_run (.nil _ : Run (step toLowercase) _ _ [] _)
  have transfer : ∀ P Q : Debug → Reply → Int → Prop,
      (∀ s reply index, Cached fid s → P s reply index → Q s reply index) →
      Run (step toLowercase) (Resolving P) .new as s →
      Run (step toLowercase) (Resolving Q) .new as s := by
    intro P Q imp resolving
    refine (run.both resolving).strengthen
      (fun _ _ _ cached both taken => cached_step cached both.1 taken) ?_ cached₀
    intro s a t cached both taken
    cases a with
    | call tool args reply =>
      exact fun index resolves => imp s reply index cached (both.2 index resolves)
    | _ => trivial
  exact ⟨transfer _ _ fun _ _ _ cached => (right_iff_current cached).mp,
    transfer _ _ fun _ _ _ cached => (right_iff_current cached).mpr⟩

/-! The indices of a backtrace. -/

/-- A backtrace shows a frame under an index, with its id. -/
def Lists (outcome : ToolOutcome) (index id : Int) : Prop :=
  ∃ items fields, field "frames" outcome = some (.array items) ∧ .object fields ∈ items ∧
    fields.lookup "index" = some (.int index) ∧ fields.lookup "id" = some (.int id)

/-- The index comes to the id, whatever the adapter answers. -/
def Stays (index id : Int) (s : Debug) : Prop :=
  ∀ reply, (resolveFrameId (s.inspector reply) s.session index).1 = .ok id

/-- The calls that read frames. -/
def Reads (_ : Debug) : Action → Prop
  | .call .. => True
  | _ => False

/-- The index of a call is in the map, or its request fails, or the frames that are listed then
show the id under the index that is kept. -/
def Keeps (index id : Int) (s : Debug) (reply : Reply) (asked : Int) : Prop :=
  s.session.frameMapping.lookup asked ≠ none ∨ (∃ e, reply.stackTrace = .error e) ∨
    (frameAt (implicit s) index).map StackFrame.id = some id

private theorem stays_iff {id : Int} :
    Stays index id s ↔ s.session.frameMapping.lookup index = some id := by
  constructor
  · intro stays
    have closed := stays ⟨.error .closed, fun _ => .error .closed, fun _ => .error .closed,
      fun _ _ => .error .closed⟩
    cases here : s.session.frameMapping.lookup index with
    | none =>
      rw [resolved_failed here rfl] at closed
      cases closed
    | some id' =>
      rw [resolved_hit here] at closed
      exact congrArg some (Except.ok.inj closed)
  · intro here reply
    rw [resolved_hit here]

/-- A frame that a response shows is in the map that is made of it. -/
private theorem lookup_of_item {stack : List StackFrame} {fields : List (String × Value)} {id : Int}
    (shown : .object fields ∈ (numbered stack).map frameItem)
    (index_ : fields.lookup "index" = some (.int index))
    (id_ : fields.lookup "id" = some (.int id)) :
    (frameMap (numbered stack)).lookup index = some id := by
  obtain ⟨frame, mem, is⟩ := List.mem_map.mp shown
  obtain ⟨i, inside, rfl⟩ := List.mem_mapIdx.mp mem
  obtain rfl := Value.object.inj is
  obtain rfl : (i : Int) = index := Value.int.inj (Option.some.inj index_)
  obtain rfl : stack[i].id = id := Value.int.inj (Option.some.inj id_)
  rw [lookup_frameMap, frameAt, if_neg (by omega), Int.toNat_natCast,
    List.getElem?_eq_getElem inside]
  rfl

private theorem lookup_listed {args : Args} {id : Int}
    (taken : step toLowercase s (.backtrace args reply) = some s')
    (lists : Lists (handleBacktrace s.session args (some (s.inspector reply))).1 index id) :
    s'.session.frameMapping.lookup index = some id := by
  obtain ⟨items, fields, frames, shown, index_, id_⟩ := lists
  have is := Option.some.inj taken
  unfold handleBacktrace at frames is
  cases guard : s.session.checkState [.stopped] with
  | error e =>
    rw [guard] at frames
    cases frames
  | ok _ =>
    rw [guard] at frames is
    cases thread : resolveBacktraceThreadId s.session args with
    | error e =>
      rw [thread] at frames
      cases frames
    | ok t =>
      rw [thread] at frames is
      simp only [Debug.inspector] at frames is
      cases answered : reply.stackTrace with
      | error e =>
        rw [answered] at frames
        cases frames
      | ok total =>
        rw [answered] at frames is
        obtain rfl := Value.array.inj (Option.some.inj frames)
        rw [← is]
        exact lookup_of_item shown index_ id_

/-- A call keeps the frame of an index exactly when it does not make a map without it. -/
private theorem keeps_iff {tool : FrameTool} {args : Args} {id : Int}
    (here : s.session.frameMapping.lookup index = some id)
    (taken : step toLowercase s (.call tool args reply) = some s') :
    s'.session.frameMapping.lookup index = some id ↔
      Resolving (Keeps index id) s (.call tool args reply) := by
  have is := Option.some.inj taken
  rw [call_session] at is
  subst is
  simp only [Resolving]
  cases asks : tool.resolves s.session args with
  | none => exact iff_of_true here (fun j resolves => by cases resolves)
  | some asked =>
    simp only [Option.some.injEq, forall_eq', callOwner]
    cases answered : reply.stackTrace with
    | error e => exact iff_of_true here (.inr (.inl ⟨e, answered⟩))
    | ok total =>
      cases there : s.session.frameMapping.lookup asked with
      | some id' =>
        simp only [there, Option.isNone_some, Bool.false_eq_true, if_false]
        refine iff_of_true here (.inl ?_)
        rw [there]
        exact Option.some_ne_none id'
      | none =>
        simp only [there, Option.isNone_none, if_true]
        change (frameMap (numbered (implicit s))).lookup index = some id ↔ _
        rw [lookup_frameMap]
        refine ⟨fun same => .inr (.inr same), ?_⟩
        rintro (hit | ⟨e, fails⟩ | same)
        · exact absurd there hit
        · rw [answered] at fails
          cases fails
        · exact same

/-- An index that a backtrace has shown comes to the same id all through the calls after it
exactly when none of them makes a map that does not list it so. -/
theorem listed_index_stays_iff (toLowercase : String → String) (s s₁ s₂ : Debug) (args : Args)
    (reply : Reply) (index id : Int) (as : List Action)
    (traced : step toLowercase s (.backtrace args reply) = some s₁)
    (lists : Lists (handleBacktrace s.session args (some (s.inspector reply))).1 index id)
    (run : Run (step toLowercase) Reads s₁ as s₂) :
    Throughout (step toLowercase) (Stays index id) s₁ as s₂ ↔
      Run (step toLowercase) (Resolving (Keeps index id)) s₁ as s₂ := by
  refine run.throughout_iff (J := fun _ => True) (fun _ _ _ _ _ _ => trivial) ?_ trivial
    (stays_iff.mpr (lookup_listed traced lists))
  intro s a t _ stays reads taken
  cases a with
  | call tool args reply => exact stays_iff.trans (keeps_iff (stays_iff.mp stays) taken)
  | _ => cases reads

end

/-! Two threads, of two frames and of one. -/

private def threadFrame (t index : Int) : Int := 1000 * t + index

/-- Stacks of so many frames. -/
private def threadStacks (depth : Int → Nat) (t : Int) : List StackFrame :=
  (List.range (depth t)).map fun (i : Nat) => ⟨threadFrame t i, "f", none, 0, ""⟩

private theorem granted_stacks (depth : Int → Nat) (s : Debug) (info : StopInfo) :
    Granted threadFrame s (.stop info (threadStacks depth)) := by
  intro t index frame here
  unfold frameAt threadStacks at here
  split at here
  · cases here
  · rename_i natural
    rw [List.getElem?_map] at here
    obtain ⟨i, there, rfl⟩ := Option.map_eq_some_iff.mp here
    obtain ⟨inside, rfl⟩ := List.getElem?_eq_some_iff.mp there
    rw [List.getElem_range]
    change threadFrame t index.toNat = threadFrame t index
    rw [Int.toNat_of_nonneg (Int.not_lt.mp natural)]

private def depths : Int → Nat := fun t => if t = 1 then 2 else 1

private def quiet : Reply :=
  ⟨.ok 2, fun _ => .ok [], fun _ => .ok [], fun _ _ => .error .closed⟩

/-- A read in the first thread, and then a stop in the second. -/
private def acrossStops : List Action :=
  [.stop ⟨"breakpoint", 1, "", []⟩ (threadStacks depths), .call .readVariables ⟨∅⟩ quiet, .resume,
    .stop ⟨"breakpoint", 2, "", []⟩ (threadStacks depths)]

/-- The frames of the first thread answer for the second, its missing one included. -/
theorem frame_of_other_thread : ∃ s, Run (step id) (Granted threadFrame) .new acrossStops s ∧
    s.session.state = .stopped ∧ stoppedThread s.session = 2 ∧
    (frameAt (s.stack 2) 0).map StackFrame.id = some 2000 ∧
    (resolveFrameId (s.inspector quiet) s.session 0).1 = .ok 1000 ∧
    frameAt (s.stack 2) 1 = none ∧
    (resolveFrameId (s.inspector quiet) s.session 1).1 = .ok 1001 ∧
    ¬ Right s quiet 0 ∧ ¬ Right s quiet 1 := by
  refine ⟨_, .cons (granted_stacks _ _ _) rfl (.cons trivial rfl (.cons trivial rfl
    (.cons (granted_stacks _ _ _) rfl (.nil _)))), rfl, rfl, rfl, rfl, rfl, rfl, ?_, ?_⟩
  · rintro ⟨found, -⟩
    obtain ⟨frame, there, same⟩ := found 1000 rfl
    obtain rfl := Option.some.inj there
    exact absurd same (by decide)
  · rintro ⟨found, -⟩
    obtain ⟨frame, there, -⟩ := found 1001 rfl
    cases there

/-- A read that finds the map empty, another stop in the same thread, and a read that finds its
index in the map. -/
private def sameThread : List Action :=
  [.stop ⟨"breakpoint", 1, "", []⟩ (threadStacks depths), .call .readVariables ⟨∅⟩ quiet, .resume,
    .stop ⟨"step", 1, "", []⟩ (threadStacks depths), .call .readVariables ⟨∅⟩ quiet]

theorem resolutions_right_again : ∃ s, Run (step id) (Resolving Right) .new sameThread s ∧
    s.session.frameMapping.lookup 0 = some 1000 := by
  have run : ∃ s, Run (step id) (Granted threadFrame) .new sameThread s ∧
      s.session.frameMapping.lookup 0 = some 1000 :=
    ⟨_, .cons (granted_stacks _ _ _) rfl (.cons trivial rfl (.cons trivial rfl
      (.cons (granted_stacks _ _ _) rfl (.cons trivial rfl (.nil _))))), rfl⟩
  have current : ∃ s, Run (step id) (Resolving (Current threadFrame)) .new sameThread s := by
    refine ⟨_, .cons trivial rfl (.cons ?_ rfl (.cons trivial rfl (.cons trivial rfl
      (.cons ?_ rfl (.nil _)))))⟩
    · intro index asks hit
      obtain rfl := Option.some.inj asks
      exact absurd rfl hit
    · intro index asks hit
      obtain rfl := Option.some.inj asks
      exact ⟨rfl, fun none => by cases none⟩
  obtain ⟨s, granted, listed⟩ := run
  obtain ⟨s', current⟩ := current
  obtain rfl := granted.last_eq current
  exact ⟨s, (resolutions_right_iff id threadFrame sameThread s granted).mpr current, listed⟩

/-- The process has stopped in the first thread. -/
private def stoppedInFirst : Debug :=
  ⟨{ SessionManager.new with state := .stopped, lastStopped := some ⟨"breakpoint", 1, "", []⟩ },
    threadStacks depths, 1⟩

/-- A backtrace of the second thread. -/
private def ofSecond : Args := ⟨AList.singleton "thread_id" (.number 2)⟩

private def traced : Debug := (step id stoppedInFirst (.backtrace ofSecond quiet)).getD .new

private theorem lists_second :
    Lists (handleBacktrace stoppedInFirst.session ofSecond
      (some (stoppedInFirst.inspector quiet))).1 0 2000 :=
  ⟨_, _, rfl, List.mem_cons_self .., rfl, rfl⟩

/-- A read that misses puts the first thread's frame in the place of the one that was listed. -/
theorem listed_index_moves : step id stoppedInFirst (.backtrace ofSecond quiet) = some traced ∧
    Lists (handleBacktrace stoppedInFirst.session ofSecond
      (some (stoppedInFirst.inspector quiet))).1 0 2000 ∧
    ∃ s, Run (step id) Reads traced
        [.call .readVariables ⟨AList.singleton "frame_index" (.number 1)⟩ quiet] s ∧
      ∀ reply, (resolveFrameId (s.inspector reply) s.session 0).1 = .ok 1000 :=
  ⟨rfl, lists_second, _, .single trivial rfl, fun _ => rfl⟩

theorem listed_index_stays_second : Stays 0 2000 traced := by
  have calls : Run (step id) Reads traced [.call .readVariables ⟨∅⟩ quiet]
      ((step id traced (.call .readVariables ⟨∅⟩ quiet)).getD .new) := .single trivial rfl
  have kept := (listed_index_stays_iff id _ _ _ _ _ 0 2000 _ rfl lists_second calls).mpr
    (.single (fun index asks => by
      obtain rfl := Option.some.inj asks
      exact .inl (Option.some_ne_none 2000)) rfl)
  cases kept.1 with
  | cons stays _ _ => exact stays

end LldbDebugMcp.Server.Frames
