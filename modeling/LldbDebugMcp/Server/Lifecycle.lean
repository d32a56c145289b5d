/- module: LldbDebugMcp/Server/Lifecycle
   source: crates/mcp-tools/src/handlers/lifecycle.rs
   digest: The launch, attach and disconnect handlers, one await or lock acquisition a step. -/

import LldbDebugMcp.Server.Handler

set_option autoImplicit false
set_option relaxedAutoImplicit false

namespace LldbDebugMcp.Server.Lifecycle

open LldbDebugMcp.Core.Types
open LldbDebugMcp.Session.Manager
open LldbDebugMcp.Session.Operation
open LldbDebugMcp.Backend.Operations
open LldbDebugMcp.Server.Contract
open LldbDebugMcp.Server.Response
open LldbDebugMcp.Server.Handler

/-- The arguments of a launch, before the pending breakpoints are flushed into its spec. -/
structure LaunchArgs where
  program : String
  args : List String
  cwd : String
  env : List (String × String)
  stopOnEntry : Bool

/-- The parsed arguments of `handle_launch` or `handle_attach`. -/
inductive StartArgs where
  | launch (args : LaunchArgs)
  | attach (spec : AttachSpec)

/-- What is handed to the backend. -/
inductive Plan where
  | launch (spec : LaunchSpec)
  | attach (spec : AttachSpec)

namespace Plan

def call : Plan → Call
  | .launch spec => .launch spec
  | .attach spec => .attach spec

/-- The recorded program: the path, or the label of the attach target. -/
def label : Plan → String
  | .launch spec => spec.program
  | .attach spec =>
    match spec.pid with
    | some pid => "pid:" ++ toString pid
    | none => spec.waitFor.getD ""

/-- The recorded pid: the explicit target of an attach takes precedence over the pid of
the debugger process. -/
def targetPid (debuggerPid : Option Int) : Plan → Option Int
  | .launch _ => debuggerPid
  | .attach spec => spec.pid <|> debuggerPid

def cancelMessage : Plan → String
  | .launch spec =>
    if spec.stopOnEntry then "timed out waiting for stop on entry: context canceled"
    else "launch timed out: context canceled"
  | .attach _ => "timed out waiting for stop on entry: context canceled"

def status : Plan → String
  | .launch _ => "launched"
  | .attach _ => "attached"

def exitText : Plan → String
  | .launch _ => "Program exited during launch"
  | .attach _ => "Process exited during attach"

end Plan

/-- The outcome of a started session. An attach never reports `running`, and its
`terminated` is handled as its `exited`. -/
def startOutcome : Reply → Option (Except BackendError LaunchOutcome)
  | .launch result => some result
  | .attach (.ok (.stopped info)) => some (.ok (.stopped info))
  | .attach (.ok (.exited code)) => some (.ok (.exited code))
  | .attach (.ok .terminated) => some (.ok (.exited none))
  | .attach (.error e) => some (.error e)
  | _ => none

/-- The session state that an outcome is recorded as. -/
def outcomeState : LaunchOutcome → State
  | .stopped _ => .stopped
  | .running => .running
  | .exited _ => .terminated

/-- The points of `handle_launch` and of `handle_attach`, which differ in their first steps
and in the texts that the plan carries. -/
inductive StartPc where
  | guardIdle (args : Except String StartArgs)
  | setConfiguring (args : StartArgs)
  | flushPending (args : LaunchArgs)
  | connecting (plan : Plan)
  | connectReset (e : BackendError)
  | connectResetOutput (e : BackendError)
  | connectClear (e : BackendError)
  | setBackend (plan : Plan)
  /-- Read the generation, spawn the event pump, and begin the backend call. -/
  | bindPump (plan : Plan)
  | starting (plan : Plan)
  | cleanupClear (message : String)
  | cleanupReset (message : String)
  | cleanupResetOutput (message : String)
  | setProgram (plan : Plan) (outcome : LaunchOutcome)
  | setPid (plan : Plan) (outcome : LaunchOutcome) (target : Option Int)
  | readPid (plan : Plan) (outcome : LaunchOutcome)
  | setOutcome (plan : Plan) (outcome : LaunchOutcome) (pid : Int)
  | cacheStopped (plan : Plan) (info : StopInfo) (pid : Int)

namespace StartPc

/-- The session write of a point. -/
def operation : StartPc → Option SessionOp
  | .setConfiguring _ => some (.setState .configuring)
  | .flushPending _ => some .flushPendingBreakpoints
  | .connectReset _ | .cleanupReset _ => some .resetInner
  | .connectResetOutput _ | .cleanupResetOutput _ => some .resetOutput
  | .setProgram plan _ => some (.setProgram plan.label)
  | .setPid _ _ target => target.map .setPid
  | .setOutcome _ outcome _ => some (.setState (outcomeState outcome))
  | .cacheStopped _ info _ => some (.setLastStopped info)
  | .guardIdle _ | .connecting _ | .connectClear _ | .setBackend _ | .bindPump _ | .starting _
  | .cleanupClear _ | .readPid .. => none

/-- What becomes of the backend slot. -/
def slot (t : Nat) (backend : Option Nat) : StartPc → Option Nat
  | .setBackend _ => some t
  | .connectClear _ | .cleanupClear _ => none
  | _ => backend

/-- The point at which the event pump captures the generation. -/
def binds : StartPc → Bool
  | .bindPump _ => true
  | _ => false

/-- The response of a launch or attach that has not exited. -/
def startedResponse (plan : Plan) (pid : Int) (state : String) : List (String × Value) :=
  [("status", .string plan.status), ("program", .string plan.label), ("pid", .int pid),
    ("state", .string state)]

section

variable {S : Seam}

/-- Where a step leads. -/
def next (w : World S) (t : Nat) (token : Bool) : StartPc → Choice S → Option (Next S StartPc)
  | .guardIdle args, .go =>
    match w.session.checkState [.idle], args with
    | .error e, _ => return_ (.error e)
    | .ok _, .error e => return_ (.error e)
    | .ok _, .ok args => goTo (.setConfiguring args)
  | .setConfiguring args, .go =>
    match args with
    | .launch args => goTo (.flushPending args)
    | .attach spec => goTo (.connecting (.attach spec))
  | .flushPending args, .go =>
    let (sources, functions) := w.session.flushPendingBreakpoints.1
    goTo (.connecting (.launch
      { program := args.program
        args := args.args
        cwd := if args.cwd.isEmpty then none else some args.cwd
        env := args.env
        stopOnEntry := args.stopOnEntry
        sourceBreakpoints := sources
        functionBreakpoints := functions }))
  | .connecting plan, .connected conf => some ⟨.at (.setBackend plan), some (t, S.connect conf)⟩
  | .connecting _, .connectFailed e => goTo (.connectReset e)
  | .connectReset e, .go => goTo (.connectResetOutput e)
  | .connectResetOutput e, .go => goTo (.connectClear e)
  | .connectClear e, .go => return_ (.error (connectError e))
  | .setBackend plan, .go => goTo (.bindPump plan)
  | .bindPump plan, .go => w.startCall t t plan.call (.starting plan)
  | .starting plan, .reply =>
    w.takeReply t t fun reply => (startOutcome reply).map fun
      | .ok outcome => .at (.setProgram plan outcome)
      | .error e => .at (.cleanupClear (handshakeError e))
  | .starting plan, .cancelled =>
    if token then w.dropCall t t (.at (.cleanupClear plan.cancelMessage)) else none
  | .cleanupClear message, .go => goTo (.cleanupReset message)
  | .cleanupReset message, .go => goTo (.cleanupResetOutput message)
  | .cleanupResetOutput message, .go => return_ (.error message)
  | .setProgram plan outcome, .go =>
    (w.conns t).bind fun c => goTo (.setPid plan outcome (plan.targetPid (S.debuggerPid c)))
  | .setPid plan outcome _, .go => goTo (.readPid plan outcome)
  | .readPid plan outcome, .go => goTo (.setOutcome plan outcome w.session.pid)
  | .setOutcome plan outcome pid, .go =>
    match outcome with
    | .stopped info => goTo (.cacheStopped plan info pid)
    | .running => return_ (.json (.object (startedResponse plan pid "running")))
    | .exited _ => return_ (.text plan.exitText)
  | .cacheStopped plan info pid, .go =>
    return_ (.json (.object (startedResponse plan pid "stopped" ++
      [("stop_reason", .string info.reason), ("stopped_thread_id", .int info.threadId)])))
  | _, _ => none

/-- Every transition of the handler, with the connection that it changes. -/
inductive Moves (w : World S) (t : Nat) (token : Bool) :
    StartPc → Goto StartPc → Option (Nat × S.Conn) → Prop where
  | turnedAway {args : Except String StartArgs} {e : String} (busy : w.session.state ≠ .idle) :
      Moves w t token (.guardIdle args) (.done (.error e)) none
  | badArgs {e : String} : Moves w t token (.guardIdle (.error e)) (.done (.error e)) none
  | admitted {args : StartArgs} (idle : w.session.state = .idle) :
      Moves w t token (.guardIdle (.ok args)) (.at (.setConfiguring args)) none
  | configuredLaunch {args : LaunchArgs} :
      Moves w t token (.setConfiguring (.launch args)) (.at (.flushPending args)) none
  | configuredAttach {spec : AttachSpec} :
      Moves w t token (.setConfiguring (.attach spec)) (.at (.connecting (.attach spec))) none
  | flushed {args : LaunchArgs} {spec : LaunchSpec} :
      Moves w t token (.flushPending args) (.at (.connecting (.launch spec))) none
  | connected {plan : Plan} (conf : S.Conf) :
      Moves w t token (.connecting plan) (.at (.setBackend plan)) (some (t, S.connect conf))
  | connectFailed {plan : Plan} (e : BackendError) :
      Moves w t token (.connecting plan) (.at (.connectReset e)) none
  | connectReset {e : BackendError} :
      Moves w t token (.connectReset e) (.at (.connectResetOutput e)) none
  | connectResetOutput {e : BackendError} :
      Moves w t token (.connectResetOutput e) (.at (.connectClear e)) none
  | connectClear {e : BackendError} :
      Moves w t token (.connectClear e) (.done (.error (connectError e))) none
  | setBackend {plan : Plan} : Moves w t token (.setBackend plan) (.at (.bindPump plan)) none
  | bindPump {plan : Plan} {k k' : S.Conn} (here : w.conns t = some k)
      (started : S.start k t plan.call = some k') :
      Moves w t token (.bindPump plan) (.at (.starting plan)) (some (t, k'))
  | succeeded {plan : Plan} {k k' : S.Conn} {reply : Reply} {outcome : LaunchOutcome}
      (here : w.conns t = some k) (finished : S.finish k t = some (reply, k'))
      (outcome_eq : startOutcome reply = some (.ok outcome)) :
      Moves w t token (.starting plan) (.at (.setProgram plan outcome)) (some (t, k'))
  | failed {plan : Plan} {k k' : S.Conn} {reply : Reply} {e : BackendError}
      (here : w.conns t = some k) (finished : S.finish k t = some (reply, k'))
      (outcome_eq : startOutcome reply = some (.error e)) :
      Moves w t token (.starting plan) (.at (.cleanupClear (handshakeError e))) (some (t, k'))
  | cancelled {plan : Plan} {k k' : S.Conn} (fired : token = true) (here : w.conns t = some k)
      (dropped : S.cancel k t = some k') :
      Moves w t token (.starting plan) (.at (.cleanupClear plan.cancelMessage)) (some (t, k'))
  | cleanupClear {message : String} :
      Moves w t token (.cleanupClear message) (.at (.cleanupReset message)) none
  | cleanupReset {message : String} :
      Moves w t token (.cleanupReset message) (.at (.cleanupResetOutput message)) none
  | cleanupResetOutput {message : String} :
      Moves w t token (.cleanupResetOutput message) (.done (.error message)) none
  | setProgram {plan : Plan} {outcome : LaunchOutcome} {target : Option Int} :
      Moves w t token (.setProgram plan outcome) (.at (.setPid plan outcome target)) none
  | setPid {plan : Plan} {outcome : LaunchOutcome} {target : Option Int} :
      Moves w t token (.setPid plan outcome target) (.at (.readPid plan outcome)) none
  | readPid {plan : Plan} {outcome : LaunchOutcome} {pid : Int} :
      Moves w t token (.readPid plan outcome) (.at (.setOutcome plan outcome pid)) none
  | stopped {plan : Plan} {info : StopInfo} {pid : Int} :
      Moves w t token (.setOutcome plan (.stopped info) pid) (.at (.cacheStopped plan info pid))
        none
  | running {plan : Plan} {pid : Int} {outcome : ToolOutcome}
      (success : ∀ e, outcome ≠ .error e) :
      Moves w t token (.setOutcome plan .running pid) (.done outcome) none
  | exited {plan : Plan} {code : Option Int} {pid : Int} {outcome : ToolOutcome}
      (success : ∀ e, outcome ≠ .error e) :
      Moves w t token (.setOutcome plan (.exited code) pid) (.done outcome) none
  | cacheStopped {plan : Plan} {info : StopInfo} {pid : Int} {outcome : ToolOutcome}
      (success : ∀ e, outcome ≠ .error e) :
      Moves w t token (.cacheStopped plan info pid) (.done outcome) none

theorem moves_of_next {w : World S} {t : Nat} {token : Bool} {pc : StartPc} {choice : Choice S}
    {n : Next S StartPc} (h : pc.next w t token choice = some n) :
    Moves w t token pc n.goto n.conn := by
  cases pc with
  | guardIdle args =>
    cases choice <;> simp only [next, reduceCtorEq] at h
    split at h
    · rename_i busy
      obtain rfl := Option.some.inj h
      exact .turnedAway (by simpa using SessionManager.checkState_error busy)
    · obtain rfl := Option.some.inj h
      exact .badArgs
    · rename_i idle
      obtain rfl := Option.some.inj h
      exact .admitted (by simpa using SessionManager.checkState_ok.mp idle)
  | setConfiguring args =>
    cases choice <;> simp only [next, reduceCtorEq] at h
    cases args <;> obtain rfl := Option.some.inj h
    · exact .configuredLaunch
    · exact .configuredAttach
  | flushPending args =>
    cases choice <;> simp only [next, reduceCtorEq] at h
    obtain rfl := Option.some.inj h
    exact .flushed
  | connecting plan =>
    cases choice <;> simp only [next, reduceCtorEq] at h <;> obtain rfl := Option.some.inj h
    · exact .connected _
    · exact .connectFailed _
  | bindPump plan =>
    cases choice <;> simp only [next, reduceCtorEq] at h
    obtain ⟨k, k', here, started, rfl⟩ := World.startCall_eq h
    exact .bindPump here started
  | starting plan =>
    cases choice <;> simp only [next, reduceCtorEq] at h
    · obtain ⟨k, k', reply, g, here, finished, goto, rfl⟩ := World.takeReply_eq h
      obtain ⟨result, outcome_eq, rfl⟩ := Option.map_eq_some_iff.mp goto
      cases result with
      | ok outcome => exact .succeeded here finished outcome_eq
      | error e => exact .failed here finished outcome_eq
    · split at h
      · rename_i fired
        obtain ⟨k, k', here, dropped, rfl⟩ := World.dropCall_eq h
        exact .cancelled fired here dropped
      · cases h
  | setProgram plan outcome =>
    cases choice <;> simp only [next, reduceCtorEq] at h
    obtain ⟨k, here, rest⟩ := Option.bind_eq_some_iff.mp h
    obtain rfl := Option.some.inj rest
    exact .setProgram
  | setOutcome plan outcome pid =>
    cases choice <;> simp only [next, reduceCtorEq] at h
    cases outcome <;> obtain rfl := Option.some.inj h
    · exact .stopped
    · exact .running (by simp)
    · exact .exited (by simp)
  | cacheStopped plan info pid =>
    cases choice <;> simp only [next, reduceCtorEq] at h
    obtain rfl := Option.some.inj h
    exact .cacheStopped (by simp)
  | _ =>
    cases choice <;> simp only [next, reduceCtorEq] at h
    obtain rfl := Option.some.inj h
    constructor

end

end StartPc

/-- The points of `handle_disconnect`. -/
inductive DisconnectPc where
  | guardActive (terminate : Bool)
  /-- Read the slot, and begin `disconnect` on the backend in it. -/
  | currentBackend (terminate : Bool)
  | disconnecting (b : Nat)
  /-- `drop_backend_bounded`: take the backend out of the slot and drop it. -/
  | takeBackend
  | reset
  | resetOutput

namespace DisconnectPc

def operation : DisconnectPc → Option SessionOp
  | .reset => some .resetInner
  | .resetOutput => some .resetOutput
  | .guardActive _ | .currentBackend _ | .disconnecting _ | .takeBackend => none

def slot (backend : Option Nat) : DisconnectPc → Option Nat
  | .takeBackend => none
  | _ => backend

section

variable {S : Seam}

def next (w : World S) (t : Nat) : DisconnectPc → Choice S → Option (Next S DisconnectPc)
  | .guardActive terminate, .go =>
    match w.session.checkState [.configuring, .stopped, .running, .terminated] with
    | .error e => return_ (.error e)
    | .ok _ => goTo (.currentBackend terminate)
  | .currentBackend terminate, .go =>
    match w.backend with
    | none => goTo .takeBackend
    | some b => w.startCall b t (.disconnect terminate) (.disconnecting b)
  | .disconnecting b, .reply =>
    w.takeReply b t fun
      | .disconnect => some (.at .takeBackend)
      | _ => none
  | .disconnecting b, .timeout => w.dropCall b t (.at .takeBackend)
  | .takeBackend, .go => goTo .reset
  | .reset, .go => goTo .resetOutput
  | .resetOutput, .go => return_ (.json (.object [("status", .string "disconnected")]))
  | _, _ => none

/-- Every transition of the handler, with the connection that it changes. -/
inductive Moves (w : World S) (t : Nat) :
    DisconnectPc → Goto DisconnectPc → Option (Nat × S.Conn) → Prop where
  | turnedAway {terminate : Bool} {e : String} (idle : w.session.state = .idle) :
      Moves w t (.guardActive terminate) (.done (.error e)) none
  | admitted {terminate : Bool} (active : w.session.state ≠ .idle) :
      Moves w t (.guardActive terminate) (.at (.currentBackend terminate)) none
  | noBackend {terminate : Bool} (empty : w.backend = none) :
      Moves w t (.currentBackend terminate) (.at .takeBackend) none
  | begun {terminate : Bool} {b : Nat} {k k' : S.Conn} (slot : w.backend = some b)
      (here : w.conns b = some k) (started : S.start k t (.disconnect terminate) = some k') :
      Moves w t (.currentBackend terminate) (.at (.disconnecting b)) (some (b, k'))
  | finished {b : Nat} {k k' : S.Conn} (here : w.conns b = some k)
      (finished : S.finish k t = some (.disconnect, k')) :
      Moves w t (.disconnecting b) (.at .takeBackend) (some (b, k'))
  | timedOut {b : Nat} {k k' : S.Conn} (here : w.conns b = some k)
      (dropped : S.cancel k t = some k') :
      Moves w t (.disconnecting b) (.at .takeBackend) (some (b, k'))
  | takeBackend : Moves w t .takeBackend (.at .reset) none
  | reset : Moves w t .reset (.at .resetOutput) none
  | resetOutput {outcome : ToolOutcome} : Moves w t .resetOutput (.done outcome) none

theorem moves_of_next {w : World S} {t : Nat} {pc : DisconnectPc} {choice : Choice S}
    {n : Next S DisconnectPc} (h : pc.next w t choice = some n) :
    Moves w t pc n.goto n.conn := by
  cases pc with
  | guardActive terminate =>
    cases choice <;> simp only [next, reduceCtorEq] at h
    split at h <;> obtain rfl := Option.some.inj h
    · rename_i refused
      refine .turnedAway ?_
      have outside := SessionManager.checkState_error refused
      cases state : w.session.state <;> simp [state] at outside ⊢
    · rename_i active
      refine .admitted fun idle => ?_
      have allowed := SessionManager.checkState_ok.mp active
      simp [idle] at allowed
  | currentBackend terminate =>
    cases choice <;> simp only [next, reduceCtorEq] at h
    split at h
    · rename_i empty
      obtain rfl := Option.some.inj h
      exact .noBackend empty
    · rename_i b slot
      obtain ⟨k, k', here, started, rfl⟩ := World.startCall_eq h
      exact .begun slot here started
  | disconnecting b =>
    cases choice <;> simp only [next, reduceCtorEq] at h
    · obtain ⟨k, k', reply, g, here, finished, goto, rfl⟩ := World.takeReply_eq h
      split at goto
      · obtain rfl := Option.some.inj goto
        exact .finished here finished
      · cases goto
    · obtain ⟨k, k', here, dropped, rfl⟩ := World.dropCall_eq h
      exact .timedOut here dropped
  | _ =>
    cases choice <;> simp only [next, reduceCtorEq] at h
    obtain rfl := Option.some.inj h
    constructor

end

end DisconnectPc

end LldbDebugMcp.Server.Lifecycle
