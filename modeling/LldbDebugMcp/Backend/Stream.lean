/- module: LldbDebugMcp/Backend/Stream
   source: crates/dap-client/src/{read_loop,wire}.rs
   digest: The read loop on a finite byte stream: what it handles, what it signals, how it ends. -/

import LldbDebugMcp.Client.Wire
import LldbDebugMcp.Backend.Recovery

set_option autoImplicit false
set_option relaxedAutoImplicit false

namespace LldbDebugMcp.Backend.Stream

open LldbDebugMcp.Core.Types
open LldbDebugMcp.Client.Message
open LldbDebugMcp.Client.State
open LldbDebugMcp.Client.ReadLoop
open LldbDebugMcp.Client.Wire
open LldbDebugMcp.Library.Channel
open LldbDebugMcp.Library.Transition
open LldbDebugMcp.Backend.Adapter
open LldbDebugMcp.Backend.Steps
open LldbDebugMcp.Backend.Recovery

/-- A connection, and the bytes of the adapter's stdout that are not read yet. -/
structure InputStream where
  conn : Connection
  input : Bytes

/-- The read loop goes on, or something else happens on the connection. -/
inductive Move where
  | loop
  | other (a : Action)

/-- What only the read loop does. -/
def ofLoop : Action → Bool
  | .act (.receive _) | .act .readError | .act .proceed => true
  | _ => false

namespace InputStream

def new (pid : Option Int) (input : Bytes) : InputStream := ⟨Connection.new pid, input⟩

/-- `ReadLoop::run`: the next message is read and dispatched, or `recover` begins; the other
phases complete what was begun. -/
def run (serde : Serde) (s : InputStream) : Option InputStream :=
  match s.conn.link.loop with
  | .reading =>
    match readMessage serde s.input with
    | .ok (message, rest) => (s.conn.step (.act (.receive message))).map (⟨·, rest⟩)
    | .error _ => (s.conn.step (.act .readError)).map (⟨·, s.input⟩)
  | .terminating | .drained | .cancelled | .stopped =>
    (s.conn.step (.act .proceed)).map (⟨·, s.input⟩)

def step (serde : Serde) (s : InputStream) : Move → Option InputStream
  | .loop => s.run serde
  | .other a => if ofLoop a then none else (s.conn.step a).map (⟨·, s.input⟩)

/-- The message that a step handles. -/
def handles (serde : Serde) (s : InputStream) : Move → List DapMessage
  | .loop =>
    match s.conn.link.loop, readMessage serde s.input with
    | .reading, .ok (message, _) => [message]
    | _, _ => []
  | .other _ => []

/-- The error on which a step begins `recover`. -/
def recovers (serde : Serde) (s : InputStream) : Move → List WireError
  | .loop =>
    match s.conn.link.loop, readMessage serde s.input with
    | .reading, .error e => [e]
    | _, _ => []
  | .other _ => []

/-- The event that a step takes out of one of the two channels. -/
def takes (which : Pull) (s : InputStream) : Move → List BackendEvent
  | .other (.pull w) => if w = which then ((s.conn.pull w).map (·.1)).toList else []
  | _ => []

end InputStream

def isLoop : Move → Bool
  | .loop => true
  | .other _ => false

/-! What messages say. -/

def chunk (body : OutputBody) : BackendEvent := .output body.category body.output

def outputOf : DapMessage → Option BackendEvent
  | .event (.output body) => some (chunk body)
  | _ => none

def exitOf : DapMessage → Option Int
  | .event (.exited body) => some body.exitCode
  | _ => none

def isTerminated : DapMessage → Bool
  | .event .terminated => true
  | _ => false

/-- The exit code of the last exited event. -/
def lastExit (ms : List DapMessage) : Option Int := (ms.filterMap exitOf).getLast?

/-- What the terminated channel has been sent once these messages were handled. -/
def announced (ms : List DapMessage) (phase : Phase) : List BackendEvent :=
  if ms.any isTerminated = true ∨ phase = .stopped then
    [.terminated (lastExit (ms.takeWhile (!isTerminated ·)))]
  else []

/-- What is in the terminated channel. -/
def queued : Signal → List BackendEvent
  | .sent code => [.terminated code]
  | .unsent | .taken => []

/-- How many steps the loop can still make when so many bytes are unread. -/
def stepsLeft (unread : Nat) : Phase → Nat
  | .reading => 2 * unread + 3
  | .terminating => 2 * unread + 4
  | .drained => 2
  | .cancelled => 1
  | .stopped => 0

def rank (s : InputStream) : Nat := stepsLeft s.input.length s.conn.link.loop

variable {serde : Serde} {s s' : InputStream} {l l' : Link} {m : Move} {ms : List DapMessage}
  {got : List BackendEvent} {input : Bytes}

/-- Every way a stream can go. -/
inductive Steps (serde : Serde) (s : InputStream) : Move → InputStream → Prop where
  | handles {message : DapMessage} {rest : Bytes} (reading : s.conn.link.loop = .reading)
      (read : readMessage serde s.input = .ok (message, rest)) :
      Steps serde s .loop ⟨s.conn.setLink (s.conn.link.dispatch message), rest⟩
  | recovers {e : WireError} (reading : s.conn.link.loop = .reading)
      (failed : readMessage serde s.input = .error e) :
      Steps serde s .loop ⟨s.conn.setLink { s.conn.link with
        shared := s.conn.link.shared.cancelAllPending .closed
        loop := .drained
        lastExecution := some .terminated }, s.input⟩
  | proceeds {link : Link} (proceeds : s.conn.link.proceed = some link) :
      Steps serde s .loop ⟨s.conn.setLink link, s.input⟩
  | other {a : Action} {c : Connection} (outside : ofLoop a = false)
      (moves : Moves s.conn a c) : Steps serde s (.other a) ⟨c, s.input⟩

theorem steps_of_step (taken : s.step serde m = some s') : Steps serde s m s' := by
  cases m with
  | loop =>
    change s.run serde = some s' at taken
    have proceeds : ∀ {s'}, (s.conn.step (.act .proceed)).map (⟨·, s.input⟩) = some s' →
        Steps serde s .loop s' := by
      intro s' taken
      obtain ⟨c, stepped, rfl⟩ := Option.map_eq_some_iff.mp taken
      obtain ⟨link, eq, rfl⟩ := Option.map_eq_some_iff.mp stepped
      exact .proceeds eq
    unfold InputStream.run at taken
    split at taken
    · rename_i reading
      split at taken
      · rename_i message rest read
        simp only [Connection.step, Connection.act, Link.receive, reading, if_true,
          Option.map_some, Option.some.injEq] at taken
        subst taken
        exact .handles reading read
      · rename_i e failed
        simp only [Connection.step, Connection.act, Link.readError, reading, if_true,
          Option.map_some, Option.some.injEq] at taken
        subst taken
        exact .recovers reading failed
    all_goals exact proceeds taken
  | other a =>
    simp only [InputStream.step] at taken
    split at taken
    · cases taken
    · rename_i outside
      obtain ⟨c, stepped, rfl⟩ := Option.map_eq_some_iff.mp taken
      exact .other (Bool.eq_false_iff.mpr outside) (moves_of_step stepped)

/-- Each step of a stream is one of its connection. -/
theorem Steps.moves (steps : Steps serde s m s') : ∃ a, Moves s.conn a s'.conn := by
  cases steps with
  | handles reading => exact ⟨_, .receive reading⟩
  | recovers reading => exact ⟨_, .readError reading⟩
  | proceeds proceeds => exact ⟨_, .proceed proceeds⟩
  | other _ moves => exact ⟨_, moves⟩

/-! What a dispatched message changes. -/

private theorem dispatch_output (l : Link) (message : DapMessage) :
    (l.dispatch message).output.map chunk = l.output.map chunk ++ (outputOf message).toList := by
  cases message with
  | event event =>
    cases event with
    | output body => simp [Link.dispatch, Link.dispatchEvent, outputOf]
    | terminated =>
      simp only [Link.dispatch, Link.dispatchEvent, Link.fireTerminated, outputOf]
      split <;> simp
    | _ => simp [Link.dispatch, Link.dispatchEvent, outputOf]
  | response | other => simp [Link.dispatch, outputOf]

private theorem dispatch_lastExitCode (l : Link) (message : DapMessage) :
    (l.dispatch message).lastExitCode = (exitOf message).or l.lastExitCode := by
  cases message with
  | event event =>
    cases event with
    | terminated =>
      simp only [Link.dispatch, Link.dispatchEvent, Link.fireTerminated, exitOf]
      split <;> rfl
    | _ => rfl
  | response | other => rfl

private theorem dispatch_signal (l : Link) {message : DapMessage}
    (h : isTerminated message = false) :
    (l.dispatch message).terminated = l.terminated ∧ (l.dispatch message).loop = l.loop := by
  cases message with
  | event event =>
    cases event with
    | terminated => cases h
    | _ => exact ⟨rfl, rfl⟩
  | response | other => exact ⟨rfl, rfl⟩

private theorem dispatch_terminated (l : Link) {message : DapMessage}
    (h : isTerminated message = true) :
    (l.dispatch message).terminated = l.fireTerminated.terminated ∧
      (l.dispatch message).loop = .terminating := by
  cases message with
  | event event =>
    cases event with
    | terminated => exact ⟨rfl, rfl⟩
    | _ => cases h
  | response | other => cases h

private theorem lastExit_concat (ms : List DapMessage) (message : DapMessage) :
    lastExit (ms ++ [message]) = (exitOf message).or (lastExit ms) := by
  unfold lastExit
  rw [List.filterMap_append]
  cases h : exitOf message <;> simp [h]

private theorem announced_of_fired {phase : Phase} (fired : ms.any isTerminated = true) :
    announced ms phase = [.terminated (lastExit (ms.takeWhile (!isTerminated ·)))] :=
  if_pos (.inl fired)

private theorem announced_of_not {phase : Phase} (silent : ms.any isTerminated = false)
    (running : phase ≠ .stopped) : announced ms phase = [] :=
  if_neg (by simp [silent, running])

private theorem takeWhile_silent (silent : ms.any isTerminated = false) :
    ms.takeWhile (!isTerminated ·) = ms := by
  refine List.takeWhile_eq_self_iff.mpr fun m h => ?_
  simpa using List.any_eq_false.mp silent m h

/-- The first terminated event, or else the end of the loop, decides what is announced. -/
private theorem announced_concat (phase phase' : Phase) {message : DapMessage}
    (fired : ms.any isTerminated = true) :
    announced (ms ++ [message]) phase' = announced ms phase := by
  have exists_ : ∃ m ∈ ms, isTerminated m = true := List.any_eq_true.mp fired
  have still : (ms ++ [message]).any isTerminated = true := by simp [fired]
  rw [announced_of_fired fired, announced_of_fired still, List.takeWhile_append]
  have short : (ms.takeWhile (!isTerminated ·)).length ≠ ms.length := by
    intro same
    have all := List.takeWhile_eq_self_iff.mp
      ((List.takeWhile_prefix (!isTerminated ·)).eq_of_length same)
    obtain ⟨m, h, terminated⟩ := exists_
    simpa [terminated] using all m h
  rw [if_neg short]

/-- How a stream stands, given what the loop handled and what the terminated channel gave. -/
private structure Told (serde : Serde) (input : Bytes) (ms : List DapMessage)
    (outputs ended : List BackendEvent) (errors : List WireError) (s : InputStream) : Prop where
  order : ms ++ readMessages serde s.input = readMessages serde input
  closing : hasDrained s.conn.link.loop = true → readMessages serde s.input = []
  output : outputs ++ s.conn.link.output.map chunk = ms.filterMap outputOf
  exit : s.conn.link.lastExitCode = lastExit ms
  unsent : s.conn.link.terminated = .unsent ↔
    ¬ (ms.any isTerminated = true ∨ s.conn.link.loop = .stopped)
  signal : ended ++ queued s.conn.link.terminated = announced ms s.conn.link.loop
  errors : errors.length = if hasDrained s.conn.link.loop then 1 else 0

private theorem told_new (pid : Option Int) :
    Told serde input [] [] [] [] (InputStream.new pid input) where
  order := rfl
  closing h := by cases h
  output := rfl
  exit := rfl
  unsent := by simp [InputStream.new, Connection.new, Link.new]
  signal := by simp [InputStream.new, Connection.new, Link.new, queued, announced]
  errors := rfl

private theorem fire_cases (l : Link) :
    (l.terminated = .unsent ∧ l.fireTerminated = { l with terminated := .sent l.lastExitCode }) ∨
    (l.terminated ≠ .unsent ∧ l.fireTerminated = l) := by
  unfold Link.fireTerminated
  split
  · rename_i unsent
    exact .inl ⟨unsent, rfl⟩
  · rename_i fired
    exact .inr ⟨fired, rfl⟩

variable {outputs ended : List BackendEvent} {errors : List WireError} {message : DapMessage}
  {rest : Bytes} {e : WireError} {c : Connection} {a : Action}

/-- A terminated event fires the signal, unless one before it did. -/
private theorem told_terminated (told : Told serde input ms outputs ended errors s)
    (reading : s.conn.link.loop = .reading) (terminated : isTerminated message = true) :
    let l := s.conn.link.dispatch message
    (l.terminated = .unsent ↔
      ¬ ((ms ++ [message]).any isTerminated = true ∨ l.loop = .stopped)) ∧
    ended ++ queued l.terminated = announced (ms ++ [message]) l.loop := by
  obtain ⟨signal, loop⟩ := dispatch_terminated s.conn.link terminated
  have any : (ms ++ [message]).any isTerminated = true := by simp [terminated]
  have before := told.unsent
  have sent := told.signal
  simp only [reading, reduceCtorEq, or_false] at before sent
  simp only [signal, loop, any, true_or, not_true, iff_false]
  rcases fire_cases s.conn.link with ⟨unsent, fired⟩ | ⟨already, same⟩
  · have silent : ms.any isTerminated = false := Bool.not_eq_true _ ▸ before.mp unsent
    have first : (ms ++ [message]).takeWhile (!isTerminated ·) = ms := by
      rw [List.takeWhile_append, takeWhile_silent silent, if_pos rfl]
      simp [terminated]
    rw [unsent, announced_of_not silent (by simp)] at sent
    obtain ⟨rfl, -⟩ := List.append_eq_nil_iff.mp sent
    rw [fired, announced_of_fired any, first, told.exit]
    exact ⟨fun h => (by cases h), rfl⟩
  · have some_ : ms.any isTerminated = true := by
      by_contra none
      exact already (before.mpr none)
    rw [same, announced_concat .reading .terminating some_]
    exact ⟨already, sent⟩

private theorem told_other (told : Told serde input ms outputs ended errors s)
    (reading : s.conn.link.loop = .reading) (other : isTerminated message = false) :
    let l := s.conn.link.dispatch message
    (l.terminated = .unsent ↔
      ¬ ((ms ++ [message]).any isTerminated = true ∨ l.loop = .stopped)) ∧
    ended ++ queued l.terminated = announced (ms ++ [message]) l.loop := by
  obtain ⟨signal, loop⟩ := dispatch_signal s.conn.link other
  have same : (ms ++ [message]).any isTerminated = ms.any isTerminated := by simp [other]
  simp only [signal, loop, same]
  refine ⟨told.unsent, told.signal.trans ?_⟩
  cases fired : ms.any isTerminated with
  | true => exact (announced_concat _ _ fired).symm
  | false =>
    have running : s.conn.link.loop ≠ .stopped := by simp [reading]
    rw [announced_of_not fired running, announced_of_not (same.trans fired) running]

private theorem told_dispatch (told : Told serde input ms outputs ended errors s)
    (reading : s.conn.link.loop = .reading) (message : DapMessage) :
    let l := s.conn.link.dispatch message
    (l.terminated = .unsent ↔
      ¬ ((ms ++ [message]).any isTerminated = true ∨ l.loop = .stopped)) ∧
    ended ++ queued l.terminated = announced (ms ++ [message]) l.loop := by
  cases terminated : isTerminated message with
  | true => exact told_terminated told reading terminated
  | false => exact told_other told reading terminated

private theorem told_handles (told : Told serde input ms outputs ended errors s)
    (reading : s.conn.link.loop = .reading)
    (read : readMessage serde s.input = .ok (message, rest)) :
    Told serde input (ms ++ [message]) outputs ended errors
      ⟨s.conn.setLink (s.conn.link.dispatch message), rest⟩ := by
  have early : hasDrained (s.conn.link.dispatch message).loop = false := by
    cases terminated : isTerminated message with
    | true =>
      rw [(dispatch_terminated _ terminated).2]
      rfl
    | false =>
      rw [(dispatch_signal _ terminated).2, reading]
      rfl
  have signals := told_dispatch told reading message
  refine ⟨?_, fun drained => ?_, ?_, ?_, signals.1, signals.2, ?_⟩
  · rw [← told.order, readMessages_ok read, List.append_assoc]
    rfl
  · exact absurd drained (Bool.eq_false_iff.mp early)
  · simp only [Connection.setLink]
    rw [dispatch_output, ← List.append_assoc, told.output, List.filterMap_append]
    cases h : outputOf message <;> simp [h]
  · simp only [Connection.setLink]
    rw [dispatch_lastExitCode, lastExit_concat, told.exit]
  · have count : errors.length = 0 := by
      rw [told.errors, reading]
      rfl
    simp [Connection.setLink, early, List.length_eq_zero_iff.mp count]

private theorem told_recovers (told : Told serde input ms outputs ended errors s)
    (reading : s.conn.link.loop = .reading) (failed : readMessage serde s.input = .error e) :
    Told serde input ms outputs ended (errors ++ [e])
      ⟨s.conn.setLink { s.conn.link with
        shared := s.conn.link.shared.cancelAllPending .closed
        loop := .drained
        lastExecution := some .terminated }, s.input⟩ := by
  refine ⟨told.order, fun _ => readMessages_error failed, told.output, told.exit, ?_, ?_, ?_⟩
  · simpa [Connection.setLink, reading] using told.unsent
  · simpa [Connection.setLink, reading, announced] using told.signal
  · have count := told.errors
    simp only [reading, hasDrained, Bool.false_eq_true, if_false] at count
    simp [Connection.setLink, hasDrained, count]

private theorem told_proceeds {link : Link} (told : Told serde input ms outputs ended errors s)
    (proceeds : s.conn.link.proceed = some link) :
    Told serde input ms outputs ended errors ⟨s.conn.setLink link, s.input⟩ := by
  unfold Link.proceed at proceeds
  split at proceeds
  · rename_i loop
    cases proceeds
    refine ⟨told.order, fun h => (by cases h), told.output, told.exit, ?_, ?_, ?_⟩
    · simpa [Connection.setLink, loop] using told.unsent
    · simpa [Connection.setLink, loop, announced] using told.signal
    · simpa [Connection.setLink, loop, hasDrained] using told.errors
  · rename_i loop
    cases proceeds
    refine ⟨told.order, fun _ => told.closing (by rw [loop]; rfl), told.output, told.exit,
      ?_, ?_, ?_⟩
    · simpa [Connection.setLink, loop] using told.unsent
    · simpa [Connection.setLink, loop, announced] using told.signal
    · simpa [Connection.setLink, loop, hasDrained] using told.errors
  · rename_i loop
    cases proceeds
    have closing := told.closing (by rw [loop]; rfl)
    have count := told.errors
    have before := told.unsent
    have sent := told.signal
    simp only [loop, reduceCtorEq, or_false] at before
    rcases fire_cases s.conn.link with ⟨unsent, fired⟩ | ⟨already, same⟩
    · have silent : ms.any isTerminated = false := Bool.not_eq_true _ ▸ before.mp unsent
      rw [unsent, loop, announced_of_not silent (by simp)] at sent
      obtain ⟨rfl, -⟩ := List.append_eq_nil_iff.mp sent
      rw [fired]
      refine ⟨told.order, fun _ => closing, told.output, told.exit, ?_, ?_, ?_⟩
      · simp [Connection.setLink]
      · simp [Connection.setLink, queued, announced, takeWhile_silent silent, told.exit]
      · simpa [Connection.setLink, loop, hasDrained] using count
    · have some_ : ms.any isTerminated = true := by
        by_contra none
        exact already (before.mpr none)
      rw [same]
      refine ⟨told.order, fun _ => closing, told.output, told.exit, ?_, ?_, ?_⟩
      · simpa [Connection.setLink] using already
      · rw [announced_of_fired some_] at sent
        exact sent.trans (announced_of_fired some_).symm
      · simpa [Connection.setLink, loop, hasDrained] using count
  · cases proceeds
  · cases proceeds

private theorem told_outside (told : Told serde input ms outputs ended errors s)
    (outside : ofLoop a = false) (moves : Moves s.conn a c) :
    Told serde input ms (outputs ++ s.takes .output (.other a))
      (ended ++ s.takes .terminated (.other a)) errors ⟨c, s.input⟩ := by
  have same : ∀ {c : Connection}, c.link.loop = s.conn.link.loop →
      c.link.lastExitCode = s.conn.link.lastExitCode → c.link.output = s.conn.link.output →
      c.link.terminated = s.conn.link.terminated →
      Told serde input ms (outputs ++ []) (ended ++ []) errors ⟨c, s.input⟩ := by
    intro c loop exit output terminated
    simp only [List.append_nil]
    refine ⟨told.order, ?_, ?_, ?_, ?_, ?_, ?_⟩ <;> simp only [loop, exit, output, terminated]
    · exact told.closing
    · exact told.output
    · exact told.exit
    · exact told.unsent
    · exact told.signal
    · exact told.errors
  cases moves with
  | @pullOutput body rest queued =>
    have taken : s.takes .output (.other (.pull .output)) = [chunk body] := by
      simp [InputStream.takes, Connection.pull, Link.pullOutput, queued, chunk]
    have none : s.takes .terminated (.other (.pull .output)) = [] := rfl
    rw [taken, none, List.append_nil]
    refine ⟨told.order, told.closing, ?_, told.exit, told.unsent, told.signal, told.errors⟩
    have output := told.output
    rw [queued] at output
    simpa [Connection.setLink] using output
  | @pullTerminated code sent =>
    have taken : s.takes .terminated (.other (.pull .terminated)) = [.terminated code] := by
      simp [InputStream.takes, Connection.pull, Link.pullTerminated, sent]
    have none : s.takes .output (.other (.pull .terminated)) = [] := rfl
    rw [taken, none, List.append_nil]
    have unsent := told.unsent
    have signal := told.signal
    rw [sent] at unsent signal
    refine ⟨told.order, told.closing, told.output, told.exit, ?_, ?_, told.errors⟩
    · simpa [Connection.setLink] using unsent
    · simpa [Connection.setLink, queued] using signal
  | @cancel t f =>
    have loop : (s.conn.dropFut f).link.loop = s.conn.link.loop ∧
        (s.conn.dropFut f).link.lastExitCode = s.conn.link.lastExitCode ∧
        (s.conn.dropFut f).link.output = s.conn.link.output ∧
        (s.conn.dropFut f).link.terminated = s.conn.link.terminated := by
      unfold Connection.dropFut
      split <;> exact ⟨rfl, rfl, rfl, rfl⟩
    exact same loop.1 loop.2.1 loop.2.2.1 loop.2.2.2
  | poll here advances =>
    have loop := advances.loop_eq
    exact same loop.1 loop.2.1 loop.2.2.1 loop.2.2.2
  | start | finish | childExit | stderr => exact same rfl rfl rfl rfl
  | receive | readError | proceed => cases outside

private theorem told_step (told : Told serde input ms outputs ended errors s)
    (steps : Steps serde s m s') :
    Told serde input (ms ++ s.handles serde m) (outputs ++ s.takes .output m)
      (ended ++ s.takes .terminated m) (errors ++ s.recovers serde m) s' := by
  cases steps with
  | @handles message rest reading read =>
    have handled : s.handles serde .loop = [message] := by simp [InputStream.handles, reading, read]
    have none : s.recovers serde .loop = [] := by simp [InputStream.recovers, reading, read]
    rw [handled, none]
    simpa [InputStream.takes] using told_handles told reading read
  | @recovers e reading failed =>
    have none : s.handles serde .loop = [] := by simp [InputStream.handles, reading, failed]
    have begun : s.recovers serde .loop = [e] := by simp [InputStream.recovers, reading, failed]
    rw [none, begun]
    simpa [InputStream.takes] using told_recovers told reading failed
  | @proceeds link proceeds =>
    have busy : s.conn.link.loop ≠ .reading := by
      intro reading
      simp [Link.proceed, reading] at proceeds
    have none : s.handles serde .loop = [] ∧ s.recovers serde .loop = [] := by
      cases loop : s.conn.link.loop with
      | reading => exact absurd loop busy
      | _ => simp [InputStream.handles, InputStream.recovers, loop]
    rw [none.1, none.2]
    simpa [InputStream.takes] using told_proceeds told proceeds
  | other outside moves =>
    simpa [InputStream.handles, InputStream.recovers] using told_outside told outside moves

/-! The whole course of a stream. -/

/-- The messages that the loop handled in a run. -/
def handled (serde : Serde) : InputStream → List Move → List DapMessage :=
  emits (InputStream.step serde) (InputStream.handles serde)

def recoveries (serde : Serde) : InputStream → List Move → List WireError :=
  emits (InputStream.step serde) (InputStream.recovers serde)

/-- What was taken out of one of the two channels. -/
def taken (serde : Serde) (which : Pull) : InputStream → List Move → List BackendEvent :=
  emits (InputStream.step serde) (InputStream.takes which)

private theorem told_run {pid : Option Int} {as : List Move}
    (run : Run (InputStream.step serde) anyStep (InputStream.new pid input) as s) :
    Told serde input (handled serde (InputStream.new pid input) as)
      (taken serde .output (InputStream.new pid input) as)
      (taken serde .terminated (InputStream.new pid input) as)
      (recoveries serde (InputStream.new pid input) as) s := by
  refine run.keeps_history (I := fun as s => Told serde input
    (handled serde (InputStream.new pid input) as)
    (taken serde .output (InputStream.new pid input) as)
    (taken serde .terminated (InputStream.new pid input) as)
    (recoveries serde (InputStream.new pid input) as) s) ?_ (told_new pid)
  intro as s m s' before told _ stepped
  have next := told_step told (steps_of_step stepped)
  unfold handled taken recoveries at next ⊢
  simpa only [before.emits_concat] using next

/-- The loop makes a step as long as it has not stopped. -/
private theorem run_enabled (serde : Serde) (s : InputStream) :
    (s.step serde .loop).isSome = true ↔ s.conn.link.loop ≠ .stopped := by
  change (s.run serde).isSome = true ↔ _
  unfold InputStream.run
  cases loop : s.conn.link.loop with
  | reading =>
    simp only [ne_eq, reduceCtorEq, not_false_iff, iff_true]
    cases readMessage serde s.input with
    | ok result => simp [Connection.step, Connection.act, Link.receive, loop]
    | error e => simp [Connection.step, Connection.act, Link.readError, loop]
  | _ => simp [Connection.step, Connection.act, Link.proceed, loop]

private theorem dispatch_phase (reading : l.loop = .reading) (message : DapMessage) :
    (l.dispatch message).loop = .terminating ∨ (l.dispatch message).loop = .reading := by
  cases terminated : isTerminated message with
  | true => exact .inl (dispatch_terminated l terminated).2
  | false => exact .inr ((dispatch_signal l terminated).2.trans reading)

/-- Every step of the loop takes it nearer to its end, and nothing else moves it. -/
private theorem rank_step (steps : Steps serde s m s') :
    rank s' + (if isLoop m then 1 else 0) ≤ rank s := by
  cases steps with
  | handles reading read =>
    have shorter := readMessage_rest read
    simp only [rank, Connection.setLink, reading, isLoop, if_true]
    rcases dispatch_phase reading _ with loop | loop <;>
      · rw [loop]
        simp only [stepsLeft]
        omega
  | recovers reading =>
    simp only [rank, stepsLeft, Connection.setLink, reading, isLoop, if_true]
    omega
  | proceeds proceeds =>
    unfold Link.proceed at proceeds
    split at proceeds <;> cases proceeds <;> rename_i loop <;>
      simp [rank, stepsLeft, Connection.setLink, loop, isLoop]
  | @other a c outside moves =>
    have same : c.link.loop = s.conn.link.loop := by
      cases moves with
      | cancel =>
        simp only [Connection.setCall, Connection.dropFut]
        split <;> rfl
      | poll here advances => exact advances.loop_eq.1
      | receive | readError | proceed => cases outside
      | _ => rfl
    simp only [rank, same, isLoop, Bool.false_eq_true, if_false, Nat.add_zero]
    exact Nat.le_refl _

private theorem rank_run {as : List Move} {s s' : InputStream}
    (run : Run (InputStream.step serde) anyStep s as s') : rank s' + as.countP isLoop ≤ rank s := by
  induction run with
  | nil => exact Nat.le_refl _
  | cons _ stepped _ ih =>
    have first := rank_step (steps_of_step stepped)
    rw [List.countP_cons]
    omega

private theorem replied_run {as : List Move} {q : Int} {o : OneShot PendingResult}
    (run : Run (InputStream.step serde) anyStep s as s')
    (replied : Replied q o s.conn.link.shared) :
    Replied q o s'.conn.link.shared := by
  refine run.keeps (I := fun s => Replied q o s.conn.link.shared) ?_ replied
  intro s m s' replied _ stepped
  obtain ⟨a, moves⟩ := (steps_of_step stepped).moves
  exact replied.moves moves

private theorem answered_run {as : List Move} {w : Nat} {v : OneShot StopOutcome}
    (run : Run (InputStream.step serde) anyStep s as s')
    (answered : Answered w v s.conn.link.shared) :
    Answered w v s'.conn.link.shared := by
  refine run.keeps (I := fun s => Answered w v s.conn.link.shared) ?_ answered
  intro s m s' answered _ stepped
  obtain ⟨a, moves⟩ := (steps_of_step stepped).moves
  exact answered.moves moves

private theorem sound_stream {pid : Option Int} {as : List Move}
    (run : Run (InputStream.step serde) anyStep (InputStream.new pid input) as s) :
    Sound s.conn := by
  refine run.keeps (I := fun s => Sound s.conn) ?_ (sound_new pid)
  intro s m s' sound _ stepped
  obtain ⟨a, moves⟩ := (steps_of_step stepped).moves
  exact sound.moves moves

/-- Everything that was pending when `recover` began has the closed error. -/
private theorem recover_closes {pid : Option Int} {as bs : List Move} {q : Int}
    (before : Run (InputStream.step serde) anyStep (InputStream.new pid input) as s)
    (reading : s.conn.link.loop = .reading) (failed : readMessage serde s.input = .error e)
    (after : Run (InputStream.step serde) anyStep s (.loop :: bs) s')
    (pending : q ∈ s.conn.link.shared.pending) :
    s'.conn.link.shared.replies q = .sent (.error .closed) := by
  cases after with
  | cons _ stepped rest =>
    refine (replied_run rest ?_).reply
    have assigned := ((sound_stream before).link.shared.pending_mem q pending).2
    cases steps_of_step stepped with
    | handles _ read => cases read.symm.trans failed
    | recovers =>
      refine ⟨Finset.notMem_empty q, assigned, ?_⟩
      simp [Connection.setLink, Shared.cancelAllPending, pending]
    | proceeds proceeds => simp [Link.proceed, reading] at proceeds

/-- A stop waiter that is still registered when `recover` cancels it gets `Terminated`. -/
private theorem recover_terminates {pid : Option Int} {as bs : List Move} {w : Nat}
    (before : Run (InputStream.step serde) anyStep (InputStream.new pid input) as s)
    (drained : s.conn.link.loop = .drained)
    (after : Run (InputStream.step serde) anyStep s (.loop :: bs) s')
    (slot : s.conn.link.shared.stopWaiter.slot = some w) :
    s'.conn.link.shared.stopWaiter.chan w = .sent .terminated := by
  cases after with
  | cons _ stepped rest =>
    refine (answered_run rest ?_).outcome
    have registered := (sound_stream before).link.shared.stopWaiter.slot_lt w slot
    cases steps_of_step stepped with
    | handles reading | recovers reading => cases drained.symm.trans reading
    | proceeds proceeds =>
      simp only [Link.proceed, drained, Option.some.injEq] at proceeds
      subst proceeds
      refine ⟨?_, ?_, ?_⟩
      · simp [Connection.setLink, Shared.cancel]
      · simpa [Connection.setLink, Shared.cancel] using registered
      · exact Slot.send_chan_self _ slot

/-- How a read loop runs on the bytes of a stream, whatever happens around it. -/
structure ReadsThrough (serde : Serde) (pid : Option Int) (input : Bytes) (as : List Move)
    (s : InputStream) : Prop where
  /-- It goes on until it has stopped, -/
  enabled : (s.step serde .loop).isSome = true ↔ s.conn.link.loop ≠ .stopped
  /-- which it does after boundedly many steps. -/
  bounded : as.countP isLoop ≤ 2 * input.length + 3
  /-- It handles the messages in order, -/
  order : handled serde (InputStream.new pid input) as ++ readMessages serde s.input =
    readMessages serde input
  /-- and all of them before `recover` begins. -/
  all : hasDrained s.conn.link.loop = true →
    handled serde (InputStream.new pid input) as = readMessages serde input
  recovery : (recoveries serde (InputStream.new pid input) as).length =
    if hasDrained s.conn.link.loop then 1 else 0
  output : taken serde .output (InputStream.new pid input) as ++ s.conn.link.output.map chunk =
    (handled serde (InputStream.new pid input) as).filterMap outputOf
  signal : taken serde .terminated (InputStream.new pid input) as ++ queued s.conn.link.terminated =
    announced (handled serde (InputStream.new pid input) as) s.conn.link.loop
  /-- Every request that was pending when `recover` began is failed. -/
  closed : ∀ bs cs t e, as = bs ++ .loop :: cs →
    Run (InputStream.step serde) anyStep (InputStream.new pid input) bs t →
    t.conn.link.loop = .reading → readMessage serde t.input = .error e →
    ∀ q ∈ t.conn.link.shared.pending, s.conn.link.shared.replies q = .sent (.error .closed)
  /-- A stop waiter that was registered when `recover` came to it is cancelled. -/
  cancelled : ∀ bs cs t, as = bs ++ .loop :: cs →
    Run (InputStream.step serde) anyStep (InputStream.new pid input) bs t →
      t.conn.link.loop = .drained →
    ∀ w, t.conn.link.shared.stopWaiter.slot = some w →
      s.conn.link.shared.stopWaiter.chan w = .sent .terminated

theorem reads_through {pid : Option Int} {as : List Move}
    (run : Run (InputStream.step serde) anyStep (InputStream.new pid input) as s) :
    ReadsThrough serde pid input as s := by
  have told := told_run run
  have bound := rank_run run
  have later : ∀ {bs cs t}, as = bs ++ .loop :: cs →
      Run (InputStream.step serde) anyStep (InputStream.new pid input) bs t →
      Run (InputStream.step serde) anyStep t (.loop :: cs) s := by
    rintro bs cs t rfl before
    obtain ⟨u, first, second⟩ := run.split
    obtain rfl := before.last_eq first
    exact second
  refine
    { enabled := run_enabled serde s
      bounded := by
        have fresh : rank (InputStream.new pid input) = 2 * input.length + 3 := rfl
        omega
      order := told.order
      all := fun drained => by simpa [told.closing drained] using told.order
      recovery := told.errors
      output := told.output
      signal := told.signal
      closed := fun bs cs t e eq before reading failed q pending =>
        recover_closes before reading failed (later eq before) pending
      cancelled := fun bs cs t eq before drained w slot =>
        recover_terminates before drained (later eq before) slot }

private theorem step_handles {message : DapMessage} {rest : Bytes}
    (reading : s.conn.link.loop = .reading)
    (read : readMessage serde s.input = .ok (message, rest)) :
    s.step serde .loop = some ⟨s.conn.setLink (s.conn.link.dispatch message), rest⟩ := by
  change s.run serde = _
  unfold InputStream.run
  simp [reading, read, Connection.step, Connection.act, Link.receive]

private theorem step_recovers (reading : s.conn.link.loop = .reading)
    (failed : readMessage serde s.input = .error e) :
    s.step serde .loop = some ⟨s.conn.setLink { s.conn.link with
      shared := s.conn.link.shared.cancelAllPending .closed
      loop := .drained
      lastExecution := some .terminated }, s.input⟩ := by
  change s.run serde = _
  unfold InputStream.run
  simp [reading, failed, Connection.step, Connection.act, Link.readError]

/-- Bodies of one byte: an output event, an exited event and a terminated event. -/
def letters : Serde where
  envelope
    | [111] => some ⟨1, "event", none, some "output"⟩
    | [101] => some ⟨2, "event", none, some "exited"⟩
    | [116] => some ⟨3, "event", none, some "terminated"⟩
    | _ => none
  response _ := none
  stopped _ := none
  output _ := some ⟨"stdout", "bye\n"⟩
  exited _ := some ⟨3⟩

/-- A header without a length. -/
def malformed : Bytes := Library.Text.encode "Content-Length: none\n".toList

/-- Output, the exit, the end, the end once more, and no message after that. -/
def farewell : Bytes :=
  frame [111] ++ (frame [101] ++ (frame [116] ++ (frame [116] ++ malformed)))

private theorem readMessage_letter {b : UInt8} {message : DapMessage}
    (decoded : fromSlice letters [b] = .ok message) (tail : Bytes) :
    readMessage letters (frame [b] ++ tail) = .ok (message, tail) := by
  have fits : 1 ≤ maxContentLength := by decide
  unfold readMessage
  rw [@readFrame_frame [b] fits]
  change (do return (← fromSlice letters [b], tail)) = _
  rw [decoded]
  rfl

private theorem readMessage_malformed :
    readMessage letters malformed = .error (.invalidContentLength "none") := by
  have text : Library.Text.decode (Library.Text.takeLine malformed).1 =
      some "Content-Length: none\n".toList := by
    decide +kernel
  have parsed : parseLine "Content-Length: none\n".toList = .invalid "none" := by
    decide +kernel
  unfold readMessage readFrame
  rw [readHeader_line (by decide) text, parsed]
  rfl

/-- A launch begins and sends its first request; the loop reads the stream to its end. -/
def readToEnd : List Move :=
  [.other (.start 0 (Operations.Call.program (.launch ⟨"a.out", [], none, [], false, [], []⟩))),
    .other (.act (.poll 0 .go))] ++ List.replicate 9 .loop

theorem reads_through_farewell : ∃ s : InputStream,
    ReadsThrough letters none farewell readToEnd s ∧ s.conn.link.loop = .stopped ∧
    s.conn.link.output.map chunk = [.output "stdout" "bye\n"] ∧
    s.conn.link.terminated = .sent (some 3) ∧
    s.conn.link.shared.replies 1 = .sent (.error .closed) := by
  have run : Run (InputStream.step letters) anyStep (InputStream.new none farewell) readToEnd _ :=
    .cons trivial rfl <| .cons trivial rfl <|
    .cons trivial (step_handles rfl (readMessage_letter rfl _)) <|
    .cons trivial (step_handles rfl (readMessage_letter rfl _)) <|
    .cons trivial (step_handles rfl (readMessage_letter rfl _)) <| .cons trivial rfl <|
    .cons trivial (step_handles rfl (readMessage_letter rfl _)) <| .cons trivial rfl <|
    .cons trivial (step_recovers rfl readMessage_malformed) <|
    .cons trivial rfl <| .cons trivial rfl <| .nil _
  exact ⟨_, reads_through run, rfl, rfl, rfl, rfl⟩

end LldbDebugMcp.Backend.Stream
