/- module: LldbDebugMcp/Server/Execution
   source: crates/mcp-tools/src/handlers/execution.rs
   digest: The continue, step and pause handlers, one await or lock acquisition a step. -/

import LldbDebugMcp.Server.Handler

set_option autoImplicit false
set_option relaxedAutoImplicit false

namespace LldbDebugMcp.Server.Execution

open LldbDebugMcp.Core.Types
open LldbDebugMcp.Session.Manager
open LldbDebugMcp.Session.Operation
open LldbDebugMcp.Backend.Operations
open LldbDebugMcp.Server.Contract
open LldbDebugMcp.Server.Response
open LldbDebugMcp.Server.Handler

/-- What kind of resume a handler is performing. -/
inductive Resume where
  | cont
  | step (kind : StepKind)

namespace Resume

def opError : Resume → OpError
  | .cont => .continueOp
  | .step .over => .stepOver
  | .step .into => .stepInto
  | .step .out => .stepOut

def verb : Resume → String
  | .cont => "continue"
  | .step .over => "step over"
  | .step .into => "step into"
  | .step .out => "step out"

def timeoutMessage (r : Resume) : String :=
  r.verb ++ " timed out; process still running, use 'pause' to stop it"

def call (r : Resume) (threadId : Int) (granularity : Option Granularity) : Call :=
  match r with
  | .cont => .cont threadId
  | .step kind => .step kind threadId granularity

end Resume

/-- The arguments of a resume: the explicit thread, if one is given and valid, and the
granularity. -/
structure ResumeArgs where
  resume : Resume
  threadId : Except String (Option Int)
  granularity : Option Granularity

/-- The points of `resume` and of `handle_stop_result`. -/
inductive ResumePc where
  | guardStopped (args : ResumeArgs)
  | resolveThread (args : ResumeArgs)
  | currentBackend (args : ResumeArgs) (threadId : Int)
  | snapshot (args : ResumeArgs) (threadId : Int) (b : Nat)
  /-- Set the state running, and begin the backend call. -/
  | setRunning (args : ResumeArgs) (threadId : Int) (b : Nat) (generation : UInt64)
  | resuming (args : ResumeArgs) (b : Nat) (generation : UInt64)
  | revert (args : ResumeArgs) (generation : UInt64) (e : BackendError)
  | applyStopped (generation : UInt64) (info : StopInfo)
  | cacheStopped (generation : UInt64) (info : StopInfo)
  | drainStopped (generation : UInt64) (info : StopInfo)
  | applyExited (generation : UInt64) (code : Option Int)
  | drainExited (generation : UInt64) (code : Option Int)
  | applyTerminated (generation : UInt64)

namespace ResumePc

/-- The session write of a point. -/
def operation : ResumePc → Option SessionOp
  | .setRunning .. => some (.setState .running)
  | .revert .. => some (.setState .stopped)
  | .applyStopped g _ => some (.setStateIfGeneration g .stopped)
  | .cacheStopped _ info => some (.setLastStopped info)
  | .applyExited g code => some (.terminateIfGeneration g code)
  | .applyTerminated g => some (.setStateIfGeneration g .terminated)
  | .drainStopped .. | .drainExited .. => some .drainOutput
  | .guardStopped _ | .resolveThread _ | .currentBackend .. | .snapshot .. | .resuming .. => none

/-- Which point deals with the outcome of the backend call. -/
def handleStopResult (args : ResumeArgs) (generation : UInt64) :
    Except BackendError StopOutcome → ResumePc
  | .ok (.stopped info) => .applyStopped generation info
  | .ok (.exited code) => .applyExited generation code
  | .ok .terminated => .applyTerminated generation
  | .error e => .revert args generation e

section

variable {S : Seam}

/-- Where a step leads. -/
def next (w : World S) (t : Nat) (token : Bool) : ResumePc → Choice S → Option (Next S ResumePc)
  | .guardStopped args, .go =>
    match w.session.checkState [.stopped] with
    | .error e => return_ (.error e)
    | .ok _ => goTo (.resolveThread args)
  | .resolveThread args, .go =>
    match args.threadId with
    | .error e => return_ (.error e)
    | .ok (some threadId) => goTo (.currentBackend args threadId)
    | .ok none =>
      goTo (.currentBackend args ((w.session.lastStopped.map (·.threadId)).getD 1))
  | .currentBackend args threadId, .go =>
    match w.backend with
    | none => return_ (.error args.resume.opError.requestFailed)
    | some b => goTo (.snapshot args threadId b)
  | .snapshot args threadId b, .go => goTo (.setRunning args threadId b w.session.generation)
  | .setRunning args threadId b g, .go =>
    w.startCall b t (args.resume.call threadId args.granularity) (.resuming args b g)
  | .resuming args b g, .reply =>
    w.takeReply b t fun
      | .resume result => some (.at (handleStopResult args g result))
      | _ => none
  | .resuming args b _, .cancelled =>
    if token then w.dropCall b t (.done (.error args.resume.timeoutMessage)) else none
  | .revert args _ e, .go => return_ (.error (args.resume.opError.render e))
  | .applyStopped g info, .go =>
    if (w.session.setStateIfGeneration g .stopped).2 then goTo (.cacheStopped g info)
    else goTo (.drainStopped g info)
  | .cacheStopped g info, .go => goTo (.drainStopped g info)
  | .drainStopped _ info, .go =>
    return_ (.json (.object (mergeOutput (stoppedResponse info) w.session.output.drain.1)))
  | .applyExited g code, .go => goTo (.drainExited g code)
  | .drainExited _ code, .go =>
    return_ (.json (.object (mergeOutput
      ([("status", .string "exited")] ++
        (match code with
          | none => []
          | some code => [("exit_code", .int code)]))
      w.session.output.drain.1)))
  | .applyTerminated _, .go =>
    return_ (.json (.object
      [("status", .string "terminated"), ("message", .string "Debug session ended")]))
  | _, _ => none

/-- Every transition of the handler, with the connection that it changes. -/
inductive Moves (w : World S) (t : Nat) (token : Bool) :
    ResumePc → Goto ResumePc → Option (Nat × S.Conn) → Prop where
  | turnedAway {args : ResumeArgs} {e : String} (other : w.session.state ≠ .stopped) :
      Moves w t token (.guardStopped args) (.done (.error e)) none
  | admitted {args : ResumeArgs} (stopped : w.session.state = .stopped) :
      Moves w t token (.guardStopped args) (.at (.resolveThread args)) none
  | badThread {args : ResumeArgs} {e : String} :
      Moves w t token (.resolveThread args) (.done (.error e)) none
  | resolved {args : ResumeArgs} {threadId : Int} :
      Moves w t token (.resolveThread args) (.at (.currentBackend args threadId)) none
  | noBackend {args : ResumeArgs} {threadId : Int} {e : String} (empty : w.backend = none) :
      Moves w t token (.currentBackend args threadId) (.done (.error e)) none
  | backend {args : ResumeArgs} {threadId : Int} {b : Nat} (slot : w.backend = some b) :
      Moves w t token (.currentBackend args threadId) (.at (.snapshot args threadId b)) none
  | snapshot {args : ResumeArgs} {threadId : Int} {b : Nat} :
      Moves w t token (.snapshot args threadId b)
        (.at (.setRunning args threadId b w.session.generation)) none
  | setRunning {args : ResumeArgs} {threadId : Int} {b : Nat} {g : UInt64} {k k' : S.Conn}
      (here : w.conns b = some k)
      (started : S.start k t (args.resume.call threadId args.granularity) = some k') :
      Moves w t token (.setRunning args threadId b g) (.at (.resuming args b g)) (some (b, k'))
  | replied {args : ResumeArgs} {b : Nat} {g : UInt64} {k k' : S.Conn}
      {result : Except BackendError StopOutcome} (here : w.conns b = some k)
      (finished : S.finish k t = some (.resume result, k')) :
      Moves w t token (.resuming args b g) (.at (handleStopResult args g result)) (some (b, k'))
  | cancelled {args : ResumeArgs} {b : Nat} {g : UInt64} {k k' : S.Conn} {e : String}
      (fired : token = true) (here : w.conns b = some k) (dropped : S.cancel k t = some k') :
      Moves w t token (.resuming args b g) (.done (.error e)) (some (b, k'))
  | revert {args : ResumeArgs} {g : UInt64} {e : BackendError} {message : String} :
      Moves w t token (.revert args g e) (.done (.error message)) none
  | applied {g : UInt64} {info : StopInfo} (current : w.session.generation = g) :
      Moves w t token (.applyStopped g info) (.at (.cacheStopped g info)) none
  | notApplied {g : UInt64} {info : StopInfo} (stale : w.session.generation ≠ g) :
      Moves w t token (.applyStopped g info) (.at (.drainStopped g info)) none
  | cacheStopped {g : UInt64} {info : StopInfo} :
      Moves w t token (.cacheStopped g info) (.at (.drainStopped g info)) none
  | drainStopped {g : UInt64} {info : StopInfo} {outcome : ToolOutcome} :
      Moves w t token (.drainStopped g info) (.done outcome) none
  | applyExited {g : UInt64} {code : Option Int} :
      Moves w t token (.applyExited g code) (.at (.drainExited g code)) none
  | drainExited {g : UInt64} {code : Option Int} {outcome : ToolOutcome} :
      Moves w t token (.drainExited g code) (.done outcome) none
  | applyTerminated {g : UInt64} {outcome : ToolOutcome} :
      Moves w t token (.applyTerminated g) (.done outcome) none

theorem moves_of_next {w : World S} {t : Nat} {token : Bool} {pc : ResumePc} {choice : Choice S}
    {n : Next S ResumePc} (h : pc.next w t token choice = some n) :
    Moves w t token pc n.goto n.conn := by
  cases pc with
  | guardStopped args =>
    cases choice <;> simp only [next, reduceCtorEq] at h
    split at h <;> obtain rfl := Option.some.inj h
    · rename_i refused
      exact .turnedAway (by simpa using SessionManager.checkState_error refused)
    · rename_i stopped
      exact .admitted (by simpa using SessionManager.checkState_ok.mp stopped)
  | resolveThread args =>
    cases choice <;> simp only [next, reduceCtorEq] at h
    split at h <;> obtain rfl := Option.some.inj h
    · exact .badThread
    · exact .resolved
    · exact .resolved
  | currentBackend args threadId =>
    cases choice <;> simp only [next, reduceCtorEq] at h
    split at h <;> obtain rfl := Option.some.inj h <;> rename_i slot
    · exact .noBackend slot
    · exact .backend slot
  | setRunning args threadId b g =>
    cases choice <;> simp only [next, reduceCtorEq] at h
    obtain ⟨k, k', here, started, rfl⟩ := World.startCall_eq h
    exact .setRunning here started
  | resuming args b g =>
    cases choice <;> simp only [next, reduceCtorEq] at h
    · obtain ⟨k, k', reply, goto, here, finished, hg, rfl⟩ := World.takeReply_eq h
      split at hg
      · obtain rfl := Option.some.inj hg
        exact .replied here finished
      · cases hg
    · split at h
      · rename_i fired
        obtain ⟨k, k', here, dropped, rfl⟩ := World.dropCall_eq h
        exact .cancelled fired here dropped
      · cases h
  | applyStopped g info =>
    cases choice <;> simp only [next, reduceCtorEq, SessionManager.setStateIfGeneration] at h
    by_cases current : w.session.generation = g
    · simp only [current, ne_eq, not_true_eq_false, if_false, if_true] at h
      obtain rfl := Option.some.inj h
      exact .applied current
    · simp only [current, ne_eq, not_false_eq_true, if_true, Bool.false_eq_true, if_false] at h
      obtain rfl := Option.some.inj h
      exact .notApplied current
  | _ =>
    cases choice <;> simp only [next, reduceCtorEq] at h
    obtain rfl := Option.some.inj h
    constructor

end

end ResumePc

/-- The points of `handle_pause`. -/
inductive PausePc where
  | guardRunning
  /-- Read the slot, and begin `pause` on the backend in it. -/
  | currentBackend
  | pausing (b : Nat)

namespace PausePc

section

variable {S : Seam}

def next (w : World S) (t : Nat) : PausePc → Choice S → Option (Next S PausePc)
  | .guardRunning, .go =>
    match w.session.checkState [.running] with
    | .error e => return_ (.error e)
    | .ok _ => goTo .currentBackend
  | .currentBackend, .go =>
    match w.backend with
    | none => return_ (.error OpError.pauseOp.requestFailed)
    | some b => w.startCall b t .pause (.pausing b)
  | .pausing b, .reply =>
    w.takeReply b t fun
      | .pause (.ok ()) =>
        some (.done (.json (.object
          [("status", .string "pause_requested"),
            ("message", .string ("Pause request sent. The running continue/step operation " ++
              "will return when the process stops."))])))
      | .pause (.error e) => some (.done (.error (OpError.pauseOp.render e)))
      | _ => none
  | _, _ => none

/-- Every transition of the handler, with the connection that it changes. -/
inductive Moves (w : World S) (t : Nat) :
    PausePc → Goto PausePc → Option (Nat × S.Conn) → Prop where
  | turnedAway {e : String} (other : w.session.state ≠ .running) :
      Moves w t .guardRunning (.done (.error e)) none
  | admitted (running : w.session.state = .running) :
      Moves w t .guardRunning (.at .currentBackend) none
  | noBackend {e : String} (empty : w.backend = none) :
      Moves w t .currentBackend (.done (.error e)) none
  | begun {b : Nat} {k k' : S.Conn} (slot : w.backend = some b) (here : w.conns b = some k)
      (started : S.start k t .pause = some k') :
      Moves w t .currentBackend (.at (.pausing b)) (some (b, k'))
  | replied {b : Nat} {k k' : S.Conn} {result : Except BackendError Unit} {outcome : ToolOutcome}
      (here : w.conns b = some k) (finished : S.finish k t = some (.pause result, k')) :
      Moves w t (.pausing b) (.done outcome) (some (b, k'))

theorem moves_of_next {w : World S} {t : Nat} {pc : PausePc} {choice : Choice S}
    {n : Next S PausePc} (h : pc.next w t choice = some n) : Moves w t pc n.goto n.conn := by
  cases pc with
  | guardRunning =>
    cases choice <;> simp only [next, reduceCtorEq] at h
    split at h <;> obtain rfl := Option.some.inj h
    · rename_i refused
      exact .turnedAway (by simpa using SessionManager.checkState_error refused)
    · rename_i running
      exact .admitted (by simpa using SessionManager.checkState_ok.mp running)
  | currentBackend =>
    cases choice <;> simp only [next, reduceCtorEq] at h
    split at h
    · rename_i empty
      obtain rfl := Option.some.inj h
      exact .noBackend empty
    · rename_i b slot
      obtain ⟨k, k', here, started, rfl⟩ := World.startCall_eq h
      exact .begun slot here started
  | pausing b =>
    cases choice <;> simp only [next, reduceCtorEq] at h
    obtain ⟨k, k', reply, goto, here, finished, hg, rfl⟩ := World.takeReply_eq h
    split at hg
    · obtain rfl := Option.some.inj hg
      exact .replied here finished
    · obtain rfl := Option.some.inj hg
      exact .replied here finished
    · cases hg

end

end PausePc

end LldbDebugMcp.Server.Execution
