/- module: LldbDebugMcp/Server/Baseline
   source: crates/mcp-tools/src/handlers/lifecycle.rs, crates/mcp-session/src/{manager,pump}.rs
   digest: What a failed launch or attach, and a disconnect, leave behind. -/

import LldbDebugMcp.Server.Lldb

set_option autoImplicit false
set_option relaxedAutoImplicit false

namespace LldbDebugMcp.Server.Baseline

open LldbDebugMcp.Core.Types
open LldbDebugMcp.Session.Manager
open LldbDebugMcp.Session.Operation
open LldbDebugMcp.Library.Transition
open LldbDebugMcp.Server.Contract
open LldbDebugMcp.Server.Response (ToolOutcome connectError)
open LldbDebugMcp.Server.Handler
open LldbDebugMcp.Server.Lifecycle
open LldbDebugMcp.Server.System
open LldbDebugMcp.Server.Steps
open LldbDebugMcp.Server.Lldb

/-- A session that nothing has happened to since the reset that began its epoch. -/
structure Fresh (m : SessionManager) (generation : UInt64) : Prop where
  state : m.state = .idle
  generation : m.generation = generation
  program : m.program = ""
  pid : m.pid = 0
  exitCode : m.exitCode = none
  lastStopped : m.lastStopped = none
  frameMapping : m.frameMapping = ∅
  sourceBps : m.sourceBps = ∅
  functionBps : m.functionBps = []
  bpResponses : m.bpResponses = ∅
  pendingSourceBps : m.pendingSourceBps = ∅
  pendingFunctionBps : m.pendingFunctionBps = []

/-- A launch or attach returns an error, or a disconnect returns. -/
def Gives : Tool → ToolOutcome → Prop
  | .start _, outcome => ∃ e, outcome = .error e
  | .disconnect _, _ => True
  | .resume _, _ | .pause, _ => False

section

variable {S : Seam} {s s' : ToolServer S} {a : Action S} {t : Nat} {g : UInt64} {m : SessionManager}
  {backend : Option Nat}

/-- A call that stands at its guard gets past it and its argument checks. -/
def admits (s : ToolServer S) (t : Nat) : Bool :=
  match s.tasks t with
  | some (.start (.guardIdle args)) => decide (s.session.state = .idle) && args.isOk
  | some (.disconnect (.guardActive _)) => decide (s.session.state ≠ .idle)
  | _ => true

/-- No other tool is called, and the call gets past its guard. -/
def Undisturbed (t : Nat) (s : ToolServer S) : Action S → Prop
  | .call .. | .bookkeeping _ => False
  | .task t' _ => t' = t → admits s t = true
  | .cancelToken _ | .conn .. | .pump .. => True

instance : (a : Action S) → Decidable (Undisturbed t s a)
  | .call .. | .bookkeeping _ => .isFalse id
  | .task .. => inferInstanceAs (Decidable (_ → _ = true))
  | .cancelToken _ | .conn .. | .pump .. => .isTrue trivial

/-! The points of the handlers, by what lies behind them. -/

def startReset : StartPc → Bool
  | .connectResetOutput _ | .connectClear _ | .cleanupResetOutput _ => true
  | _ => false

def disconnectReset : DisconnectPc → Bool
  | .resetOutput => true
  | _ => false

/-- The slot has been emptied. -/
def emptied : Pc → Bool
  | .start (.cleanupReset _) | .start (.cleanupResetOutput _) | .disconnect .reset
  | .disconnect .resetOutput | .done _ => true
  | _ => false

/-- Where the handler of a launch or attach, or else of a disconnect, is on its way, and what
the session and the slot are there; `g` is the epoch in which it was called. -/
inductive Course (starts : Bool) (g : UInt64) (m : SessionManager) (backend : Option Nat) :
    Pc → Prop
  | starting {p : StartPc} (kind : starts = true) (ahead : startReset p = false)
      (epoch : m.generation = g) (slot : emptied (.start p) = true → backend = none) :
      Course starts g m backend (.start p)
  | disconnecting {p : DisconnectPc} (ahead : disconnectReset p = false)
      (epoch : m.generation = g) (slot : emptied (.disconnect p) = true → backend = none) :
      Course starts g m backend (.disconnect p)
  | startCleared {p : StartPc} (behind : startReset p = true) (fresh : Fresh m (g + 1))
      (slot : emptied (.start p) = true → backend = none) : Course starts g m backend (.start p)
  | disconnectCleared {p : DisconnectPc} (behind : disconnectReset p = true)
      (fresh : Fresh m (g + 1)) (slot : backend = none) :
      Course starts g m backend (.disconnect p)
  | cleared {outcome : ToolOutcome} (fresh : Fresh m (g + 1)) (slot : backend = none) :
      Course starts g m backend (.done outcome)
  | succeeded {outcome : ToolOutcome} (kind : starts = true) (fine : ∀ e, outcome ≠ .error e) :
      Course starts g m backend (.done outcome)

theorem fresh_resetInner (epoch : m.generation = g) : Fresh m.resetInner (g + 1) :=
  ⟨rfl, congrArg (· + 1) epoch, rfl, rfl, rfl, rfl, rfl, rfl, rfl, rfl, rfl, rfl⟩

/-- The output buffer is none of a fresh session's business. -/
theorem Fresh.setOutput (fresh : Fresh m g) (output : Session.Output.OutputBuffer) :
    Fresh { m with output := output } g :=
  ⟨fresh.state, fresh.generation, fresh.program, fresh.pid, fresh.exitCode, fresh.lastStopped,
    fresh.frameMapping, fresh.sourceBps, fresh.functionBps, fresh.bpResponses,
    fresh.pendingSourceBps, fresh.pendingFunctionBps⟩

/-- A pump of an older epoch leaves a fresh session fresh. -/
theorem Fresh.pumped {g' : UInt64} (fresh : Fresh m g) (stale : g' ≠ g) (event : BackendEvent) :
    Fresh ((pumpOperation g' event).apply m) g := by
  cases event with
  | output category text => exact fresh.setOutput _
  | terminated code =>
    have other : m.generation ≠ g' := fun h => stale (h.symm.trans fresh.generation)
    rw [pumpOperation, terminateIfGeneration_stale code other]
    exact fresh

/-- Before the reset a step of a launch or attach that is past its guard either goes on in its
epoch, or resets, or is the last one of a start that has succeeded. -/
private theorem course_starting {w : World S} {token starts : Bool} {p : StartPc}
    {goto : Goto StartPc} {conn : Option (Nat × S.Conn)} (move : p.Moves w t token goto conn)
    (admitted : ∀ args, p = .guardIdle args → w.session.state = .idle ∧ args.isOk = true)
    (kind : starts = true) (ahead : startReset p = false) (epoch : w.session.generation = g)
    (slot : emptied (.start p) = true → w.backend = none) :
    Course starts g (applyOption w.session p.operation) (p.slot t w.backend)
      (.ofGoto .start goto) := by
  cases move with
  | turnedAway busy => exact absurd (admitted _ rfl).1 busy
  | badArgs => cases (admitted _ rfl).2
  | connectReset => exact .startCleared rfl (fresh_resetInner epoch) nofun
  | cleanupReset => exact .startCleared rfl (fresh_resetInner epoch) slot
  | cleanupClear => exact .starting kind rfl epoch fun _ => rfl
  | running success | exited success | cacheStopped success => exact .succeeded kind success
  | @setPid _ _ target =>
    refine .starting kind rfl ?_ nofun
    cases target <;> exact epoch
  | connectResetOutput | connectClear | cleanupResetOutput => cases ahead
  | _ => exact .starting kind rfl epoch nofun

private theorem course_startCleared {w : World S} {token starts : Bool} {p : StartPc}
    {goto : Goto StartPc} {conn : Option (Nat × S.Conn)} (move : p.Moves w t token goto conn)
    (behind : startReset p = true) (fresh : Fresh w.session (g + 1))
    (slot : emptied (.start p) = true → w.backend = none) :
    Course starts g (applyOption w.session p.operation) (p.slot t w.backend)
      (.ofGoto .start goto) := by
  cases move with
  | connectResetOutput => exact .startCleared rfl (fresh.setOutput _) nofun
  | connectClear => exact .cleared fresh rfl
  | cleanupResetOutput => exact .cleared (fresh.setOutput _) (slot rfl)
  | _ => cases behind

private theorem course_disconnect {w : World S} {starts : Bool} {p : DisconnectPc}
    {goto : Goto DisconnectPc} {conn : Option (Nat × S.Conn)} (move : p.Moves w t goto conn)
    (admitted : ∀ terminate, p = .guardActive terminate → w.session.state ≠ .idle)
    (course : Course starts g w.session w.backend (.disconnect p)) :
    Course starts g (applyOption w.session p.operation) (p.slot w.backend)
      (.ofGoto .disconnect goto) := by
  cases course with
  | disconnecting ahead epoch slot =>
    cases move with
    | turnedAway idle => exact absurd idle (admitted _ rfl)
    | takeBackend => exact .disconnecting rfl epoch fun _ => rfl
    | reset => exact .disconnectCleared rfl (fresh_resetInner epoch) (slot rfl)
    | resetOutput => cases ahead
    | admitted | noBackend | begun | finished | timedOut => exact .disconnecting rfl epoch nofun
  | disconnectCleared behind fresh slot =>
    cases move with
    | resetOutput => exact .cleared (fresh.setOutput _) slot
    | _ => cases behind

/-- The call is the only one in flight, and no pump has captured the epoch after its own. -/
structure Lone (starts : Bool) (g : UInt64) (t : Nat) (s : ToolServer S) : Prop where
  others : ∀ t' pc, t' ≠ t → s.tasks t' = some pc → ∃ outcome, pc = .done outcome
  pumps : ∀ c, s.pumps c ≠ some (g + 1)
  course : ∃ pc, s.tasks t = some pc ∧ Course starts g s.session s.backend pc

/-- A pump was bound before the step, or it is bound to the current epoch. -/
private theorem pumps_goOn {pc pc' : Pc} {conn : Option (Nat × S.Conn)} {c : Nat}
    (bound : (s.goOn t pc pc' conn).pumps c = some g) :
    s.pumps c = some g ∨ pc.binds = true ∧ g = s.session.generation := by
  unfold ToolServer.goOn at bound
  dsimp only at bound
  split at bound
  · rename_i binds
    by_cases own : c = t
    · subst own
      rw [Function.update_self] at bound
      exact .inr ⟨binds, (Option.some.inj bound).symm⟩
    · rw [Function.update_of_ne own] at bound
      exact .inl bound
  · exact .inl bound

private theorem pumps_step (taken : s.step a = some s') {c : Nat} (bound : s'.pumps c = some g) :
    s.pumps c = some g ∨ g = s.session.generation := by
  cases moves_of_step taken with
  | task => exact (pumps_goOn bound).imp_right And.right
  | call | cancelToken | conn | pump | bookkeeping => exact .inl bound

/-- The pump that a launch or attach binds captures the epoch in which it was called. -/
private theorem binds_epoch {starts : Bool} {pc : Pc} (course : Course starts g m backend pc)
    (binds : pc.binds = true) : m.generation = g := by
  cases course with
  | starting _ _ epoch => exact epoch
  | disconnecting _ epoch => exact epoch
  | @startCleared p behind =>
    cases p with
    | bindPump => cases behind
    | _ => cases binds
  | disconnectCleared | cleared | succeeded => cases binds

private theorem course_pumped {starts : Bool} {pc : Pc} {g' : UInt64} {event : BackendEvent}
    (course : Course starts g m backend pc) (stale : g' ≠ g + 1) :
    Course starts g ((pumpOperation g' event).apply m) backend pc := by
  have epoch' : m.generation = g → ((pumpOperation g' event).apply m).generation = g :=
    fun epoch => (apply_generation m _ pumpOperation_ne_reset).trans epoch
  cases course with
  | starting kind ahead epoch slot => exact .starting kind ahead (epoch' epoch) slot
  | disconnecting ahead epoch slot => exact .disconnecting ahead (epoch' epoch) slot
  | startCleared behind fresh slot => exact .startCleared behind (fresh.pumped stale event) slot
  | disconnectCleared behind fresh slot =>
    exact .disconnectCleared behind (fresh.pumped stale event) slot
  | cleared fresh slot => exact .cleared (fresh.pumped stale event) slot
  | succeeded kind fine => exact .succeeded kind fine

private theorem course_task {starts : Bool} {choice : Choice S} {pc pc' : Pc}
    {conn : Option (Nat × S.Conn)} (move : TaskMoves s t pc pc' conn)
    (calm : Undisturbed t s (.task t choice))
    (here : s.tasks t = some pc) (course : Course starts g s.session s.backend pc) :
    Course starts g (applyOption s.session pc.operation) (pc.slot t s.backend) pc' := by
  cases move with
  | start move =>
    cases course with
    | starting kind ahead epoch slot =>
      refine course_starting move ?_ kind ahead epoch slot
      rintro args rfl
      have admitted := calm rfl
      simp only [admits, here, Bool.and_eq_true, decide_eq_true_eq] at admitted
      exact admitted
    | startCleared behind fresh slot => exact course_startCleared move behind fresh slot
  | disconnect move =>
    refine course_disconnect move ?_ course
    rintro terminate rfl
    have admitted := calm rfl
    simp only [admits, here, decide_eq_true_eq] at admitted
    exact admitted
  | resume | pause => cases course

private theorem lone_step {starts : Bool} (lone : Lone starts g t s) (calm : Undisturbed t s a)
    (taken : s.step a = some s') : Lone starts g t s' := by
  cases moves_of_step taken with
  | call | bookkeeping => exact absurd calm id
  | cancelToken | conn => exact ⟨lone.others, lone.pumps, lone.course⟩
  | @pump c which g' k k' event bound =>
    obtain ⟨pc, here, course⟩ := lone.course
    have stale : g' ≠ g + 1 := by
      rintro rfl
      exact lone.pumps c bound
    exact ⟨lone.others, lone.pumps, pc, here, course_pumped course stale⟩
  | @task t' choice pc pc' conn here move =>
    have mine : t' = t := by
      by_contra other
      obtain ⟨outcome, rfl⟩ := lone.others t' pc other here
      cases move
    subst mine
    obtain ⟨pc₀, here₀, course⟩ := lone.course
    obtain rfl := Option.some.inj (here₀.symm.trans here)
    refine ⟨fun t' pc other there => ?_, fun c bound => ?_, pc', Function.update_self _ _ _,
      course_task move calm here course⟩
    · exact lone.others t' pc other ((Function.update_of_ne other _ _).symm.trans there)
    · rcases pumps_goOn bound with old | ⟨binds, eq⟩
      · exact lone.pumps c old
      · exact generation_succ_ne g (eq.trans (binds_epoch course binds))

/-- How often the session is reset. -/
def resetsOf (s : ToolServer S) (as : List (Action S)) : Nat :=
  (emits ToolServer.step (fun s a => if Resets s a then [()] else []) s as).length

/-- Until the epoch wraps around it counts the resets, and a pump holds an epoch of the past. -/
private theorem epochs_count {as : List (Action S)}
    (run : Run ToolServer.step anyStep ToolServer.new as s)
    (few : resetsOf ToolServer.new as < 2 ^ 64) :
    s.session.generation.toNat = resetsOf ToolServer.new as ∧
      ∀ c g, s.pumps c = some g → g.toNat ≤ resetsOf ToolServer.new as := by
  refine run.keeps_history (I := fun as s => resetsOf ToolServer.new as < 2 ^ 64 →
    s.session.generation.toNat = resetsOf ToolServer.new as ∧
      ∀ c g, s.pumps c = some g → g.toNat ≤ resetsOf ToolServer.new as) ?_ ?_ few
  · intro as s a s' run ih _ taken few
    have count : resetsOf ToolServer.new (as ++ [a]) =
        resetsOf ToolServer.new as + if Resets s a then 1 else 0 := by
      rw [resetsOf, run.emits_concat, List.length_append]
      by_cases reset : Resets s a <;> simp [reset, resetsOf]
    rw [count] at few ⊢
    obtain ⟨epoch, pumps⟩ := ih (by omega)
    refine ⟨?_, fun c g bound => ?_⟩
    · by_cases reset : Resets s a
      · rw [if_pos reset] at few ⊢
        rw [step_of_resets taken reset]
        change (s.session.generation + 1).toNat = _
        rw [UInt64.toNat_add, epoch, UInt64.toNat_one, Nat.mod_eq_of_lt few]
      · rw [if_neg reset, Nat.add_zero, step_generation taken reset, epoch]
    · rcases pumps_step taken bound with old | rfl
      · exact Nat.le_trans (pumps c g old) (Nat.le_add_right _ _)
      · exact epoch ▸ Nat.le_add_right _ _
  · exact fun _ => ⟨rfl, nofun⟩

private theorem lone_called {starts : Bool} {tool : Tool} (quiet : Quiet s)
    (pumps : ∀ c, s.pumps c ≠ some (s.session.generation + 1))
    (course : Course starts s.session.generation s.session s.backend tool.entry)
    (called : s.step (.call t tool) = some s') : Lone starts s.session.generation t s' := by
  cases moves_of_step called with
  | call =>
    refine ⟨fun t' pc other there => ?_, pumps, tool.entry, Function.update_self _ _ _, course⟩
    exact quiet t' pc ((Function.update_of_ne other _ _).symm.trans there)

/-- With no other call running, a launch or attach that fails past its checks, and a disconnect
of a session that is not idle, leave a fresh session in the next epoch and an empty slot,
provided that no pump has captured that epoch. None has, and the next epoch is one larger, until
the epoch wraps around. -/
theorem returns_to_baseline :
    (∀ (s₀ s₁ s' : ToolServer S) (t : Nat) (tool : Tool) (outcome : ToolOutcome)
      (as : List (Action S)), Quiet s₀ →
      (∀ c, s₀.pumps c ≠ some (s₀.session.generation + 1)) →
      s₀.step (.call t tool) = some s₁ → Run ToolServer.step (Undisturbed t) s₁ as s' →
      s'.tasks t = some (.done outcome) → Gives tool outcome →
      Fresh s'.session (s₀.session.generation + 1) ∧ s'.backend = none) ∧
    ∀ (s₀ : ToolServer S) (as : List (Action S)), Run ToolServer.step anyStep ToolServer.new as s₀ →
      resetsOf ToolServer.new as + 1 < 2 ^ 64 →
      (∀ c, s₀.pumps c ≠ some (s₀.session.generation + 1)) ∧
      (s₀.session.generation + 1).toNat = s₀.session.generation.toNat + 1 := by
  constructor
  · intro s₀ s₁ s' t tool outcome as quiet pumps called run returned gives
    have course : ∃ starts, Course starts s₀.session.generation s₀.session s₀.backend tool.entry ∧
        (starts = true → ∃ e, outcome = .error e) := by
      cases tool with
      | start args => exact ⟨true, .starting rfl rfl rfl nofun, fun _ => gives⟩
      | disconnect terminate => exact ⟨false, .disconnecting rfl rfl nofun, nofun⟩
      | resume | pause => exact gives.elim
    obtain ⟨starts, course, failed⟩ := course
    obtain ⟨-, -, pc, there, last⟩ := run.keeps (I := Lone starts s₀.session.generation t)
      (fun _ _ _ lone calm taken => lone_step lone calm taken)
      (lone_called quiet pumps course called)
    obtain rfl := Option.some.inj (returned.symm.trans there)
    cases last with
    | cleared fresh slot => exact ⟨fresh, slot⟩
    | succeeded kind fine =>
      obtain ⟨e, is⟩ := failed kind
      exact absurd is (fine e)
  · intro s₀ as run few
    obtain ⟨epoch, pumps⟩ := epochs_count run (Nat.lt_of_succ_lt few)
    have next : (s₀.session.generation + 1).toNat = s₀.session.generation.toNat + 1 := by
      rw [UInt64.toNat_add, epoch, UInt64.toNat_one, Nat.mod_eq_of_lt few]
    refine ⟨fun c bound => ?_, next⟩
    have := pumps c _ bound
    omega

end

/-! An epoch that has wrapped around: the pump of the first connection holds the epoch again. -/

section

variable {s s' s₀ : ToolServer lldb} {t n : Nat} {g : UInt64} {m : SessionManager} {pc pc' : Pc}

/-- Since `s₀` the call alone has moved, and no connection. -/
private structure At (s₀ : ToolServer lldb) (t : Nat) (pc : Pc) (m : SessionManager)
    (s : ToolServer lldb) : Prop where
  here : s.tasks t = some pc
  others : ∀ t', t' ≠ t → s.tasks t' = s₀.tasks t'
  session : s.session = m
  pumps : s.pumps = s₀.pumps
  conns : s.conns = s₀.conns

private theorem at_step (choice : Choice lldb) (pc' : Pc) (at_ : At s₀ t pc m s)
    (calm : admits s t = true) (unbound : pc.binds = false)
    (next : pc.next s.toWorld t (s.tokens t) choice = some (pc', none)) :
    ∃ s', At s₀ t pc' (applyOption m pc.operation) s' ∧
      Run ToolServer.step (Undisturbed t) s [.task t choice] s' := by
  refine ⟨s.goOn t pc pc' none, ⟨Function.update_self _ _ _, fun t' other => ?_, ?_, ?_, ?_⟩,
    .single (fun _ => calm) ?_⟩
  · exact (Function.update_of_ne other _ _).trans (at_.others t' other)
  · rw [goOn_session, at_.session]
  · unfold ToolServer.goOn
    simp only [unbound, Bool.false_eq_true, if_false]
    exact at_.pumps
  · exact at_.conns
  · change (s.tasks t).bind _ = _
    rw [at_.here, Option.bind_some, next]
    rfl

/-- An attach whose `connect()` fails. -/
def failing : Tool := .start (.ok (.attach ⟨some 4711, none⟩))

def failingSteps (t : Nat) : List (System.Action lldb) :=
  proceed t 2 ++ [.task t (.connectFailed .timeout)] ++ proceed t 3

private theorem attach_fails (idle : s.session.state = .idle) (unused : s.tasks t = none) :
    ∃ s₁ s' m e, s.step (.call t failing) = some s₁ ∧
      Run ToolServer.step (Undisturbed t) s₁ (failingSteps t) s' ∧
      At s t (.done (.error e)) m s' ∧ m.state = .idle ∧
      m.generation = s.session.generation + 1 := by
  have called : s.step (.call t failing) =
      some { s with tasks := Function.update s.tasks t (some failing.entry) } := by
    simp only [ToolServer.step, unused]
  have at₁ : At s t failing.entry s.session
      { s with tasks := Function.update s.tasks t (some failing.entry) } :=
    ⟨Function.update_self _ _ _, fun t' other => Function.update_of_ne other _ _, rfl, rfl, rfl⟩
  have checked : s.session.checkState [.idle] = .ok () :=
    SessionManager.checkState_ok.mpr (by simp [idle])
  obtain ⟨s₂, at₂, run₁⟩ := at_step .go (.start (.setConfiguring (.attach ⟨some 4711, none⟩))) at₁
    (by simp [admits, failing, Tool.entry, idle, Except.isOk, Except.toBool]) rfl
    (by simp [Pc.next, failing, Tool.entry, StartPc.next, checked, goTo, Pc.ofGoto])
  obtain ⟨s₃, at₃, run₂⟩ := at_step .go (.start (.connecting (.attach ⟨some 4711, none⟩))) at₂
    (by simp only [admits, at₂.here]) rfl rfl
  obtain ⟨s₄, at₄, run₃⟩ := at_step (.connectFailed .timeout) (.start (.connectReset .timeout)) at₃
    (by simp only [admits, at₃.here]) rfl rfl
  obtain ⟨s₅, at₅, run₄⟩ := at_step .go (.start (.connectResetOutput .timeout)) at₄
    (by simp only [admits, at₄.here]) rfl rfl
  obtain ⟨s₆, at₆, run₅⟩ := at_step .go (.start (.connectClear .timeout)) at₅
    (by simp only [admits, at₅.here]) rfl rfl
  obtain ⟨s₇, at₇, run₆⟩ := at_step .go (.done (.error (connectError .timeout))) at₆
    (by simp only [admits, at₆.here]) rfl rfl
  exact ⟨_, s₇, _, _, called, run₁.append (run₂.append (run₃.append (run₄.append
    (run₅.append run₆)))), at₇, rfl, rfl⟩

/-- Between two sessions: no call is in flight, and the first connection, whose pump holds epoch
zero, has ended unseen. -/
private structure Between (g : UInt64) (n : Nat) (s : ToolServer lldb) : Prop where
  reach : Reach ToolServer.step ToolServer.new s
  quiet : Quiet s
  idle : s.session.state = .idle
  epoch : s.session.generation = g
  unused : ∀ t, n ≤ t → s.tasks t = none
  pump : s.pumps 0 = some 0
  ended : ∃ k, s.conns 0 = some k ∧ k.link.terminated = .sent none

private theorem between_next (between : Between g n s) :
    ∃ s₁ s' e, s.step (.call n failing) = some s₁ ∧
      Run ToolServer.step (Undisturbed n) s₁ (failingSteps n) s' ∧
      s'.tasks n = some (.done (.error e)) ∧ Between (g + 1) (n + 1) s' := by
  obtain ⟨s₁, s', m, e, called, run, at_, idle, epoch⟩ :=
    attach_fails between.idle (between.unused n (Nat.le_refl n))
  refine ⟨s₁, s', e, called, run, at_.here, (between.reach.next called).run run, ?_,
    at_.session ▸ idle, ?_, fun t le => ?_, at_.pumps ▸ between.pump, at_.conns ▸ between.ended⟩
  · intro t pc there
    by_cases mine : t = n
    · subst mine
      exact ⟨_, Option.some.inj (there.symm.trans at_.here)⟩
    · exact between.quiet t pc ((at_.others t mine).symm.trans there)
  · rw [at_.session, epoch, between.epoch]
  · rw [at_.others t (by omega)]
    exact between.unused t (by omega)

private theorem between_later (between : Between g n s) (i : Nat) :
    ∃ s', Between (g + UInt64.ofNat i) (n + i) s' := by
  induction i with
  | zero => exact ⟨s, by simpa using between⟩
  | succ i ih =>
    obtain ⟨s', between'⟩ := ih
    obtain ⟨-, s₂, -, -, -, -, next⟩ := between_next between'
    refine ⟨s₂, ?_⟩
    rw [UInt64.ofNat_add, ← UInt64.add_assoc, ← Nat.add_assoc]
    exact next

/-- An attach that is cancelled once its pump is bound, and the end of its debuggee. -/
def cancelledSteps : List (System.Action lldb) :=
  proceed 0 2 ++ [.task 0 (.connected none)] ++ proceed 0 2 ++
    [.cancelToken 0, .task 0 .cancelled] ++ proceed 0 3 ++ [receive 0 terminatedEvent]

def firstAttach : List (System.Action lldb) := .call 0 failing :: cancelledSteps

private theorem between_first : ∃ s : ToolServer lldb, Between 1 1 s := by
  have eval : ((exec ToolServer.step anyStep (ToolServer.new : ToolServer lldb)
      firstAttach).map fun s =>
      (returned s 0, s.session.state, s.session.generation, s.pumps 0,
        (s.conns 0).map fun k => k.link.terminated)) =
      some (true, .idle, 1, some 0, some (.sent none)) := by
    decide +kernel
  obtain ⟨s, first, eq⟩ := Option.map_eq_some_iff.mp eval
  simp only [Prod.mk.injEq] at eq
  obtain ⟨done, idle, epoch, pump, ended⟩ := eq
  obtain ⟨outcome, done⟩ := returned_eq done
  have run := run_of_exec first
  exact ⟨s, reach_of_exec first, quiet_of_onlyFirst run (by decide) done, idle, epoch,
    fun t one => absent_of_onlyFirst run (by decide) (by omega), pump,
    Option.map_eq_some_iff.mp ended⟩

/-- The pump of the first connection takes its last event. -/
private theorem pump_ends (between : Between g n s) :
    ∃ s', s.step (.pump 0 .terminated) = some s' ∧
      s'.session = (s.session.terminateIfGeneration 0 none).1 ∧ s'.tasks = s.tasks := by
  obtain ⟨k, here, ended⟩ := between.ended
  obtain ⟨k', pulled⟩ : ∃ k', k.pull .terminated = some (.terminated none, k') := by
    simp only [Backend.Adapter.Connection.pull, Client.ReadLoop.Link.pullTerminated, ended,
      Option.map_some]
    exact ⟨_, rfl⟩
  have pumped : s.step (.pump 0 .terminated) = some { s with
      session := (pumpOperation 0 (.terminated none)).apply s.session
      conns := Function.update s.conns 0 (some k') } := by
    change (s.pumps 0).bind _ = _
    rw [between.pump, Option.bind_some, here, Option.bind_some]
    exact congrArg (Option.map _) pulled
  exact ⟨_, pumped, rfl, rfl⟩

/-- When the epoch wraps around, a failed attach leaves the session in a smaller epoch, and a
pump that holds it since the first session makes the idle session terminated. -/
theorem baseline_wraps :
    ∃ (s₀ s₁ s' : ToolServer lldb) (t : Nat) (as : List (System.Action lldb)) (e : String),
      Reach ToolServer.step ToolServer.new s₀ ∧ Quiet s₀ ∧ s₀.session.state = .idle ∧
      s₀.step (.call t failing) = some s₁ ∧ Run ToolServer.step (Undisturbed t) s₁ as s' ∧
      s'.tasks t = some (.done (.error e)) ∧ s'.session.state = .terminated ∧
      s'.session.generation.toNat < s₀.session.generation.toNat := by
  obtain ⟨s, first⟩ := between_first
  obtain ⟨s₀, last⟩ := between_later first (2 ^ 64 - 2)
  obtain ⟨s₁, s₂, e, called, run, done, between⟩ := between_next last
  obtain ⟨s₃, pumped, session, tasks⟩ := pump_ends between
  have wrapped : (1 : UInt64) + UInt64.ofNat (2 ^ 64 - 2) + 1 = 0 := by decide
  have epoch : s₂.session.generation = 0 := between.epoch.trans wrapped
  have calm : Undisturbed (1 + (2 ^ 64 - 2)) s₂ (.pump 0 .terminated) := trivial
  refine ⟨s₀, s₁, s₃, _, _, e, last.reach, last.quiet, last.idle, called,
    run.append (.single calm pumped), (congrFun tasks _).trans done, ?_, ?_⟩
  · simp [session, SessionManager.terminateIfGeneration, epoch]
  · have before : s₀.session.generation.toNat = 2 ^ 64 - 1 := by
      rw [last.epoch]
      decide
    simp [session, SessionManager.terminateIfGeneration, epoch, before]

theorem returns_to_baseline_cancelled :
    ∃ (s' : ToolServer lldb) (e : String), s'.tasks 0 = some (.done (.error e)) ∧
      Fresh s'.session 1 ∧ s'.backend = none := by
  have eval : (((ToolServer.new : ToolServer lldb).step (.call 0 failing)).bind fun s₁ =>
      (exec ToolServer.step (Undisturbed 0) s₁ (cancelledSteps ++ [.pump 0 .terminated])).map
        fun s' => failedTask s' 0) = some true := by
    decide +kernel
  obtain ⟨s₁, called, rest⟩ := Option.bind_eq_some_iff.mp eval
  obtain ⟨s', run, failed⟩ := Option.map_eq_some_iff.mp rest
  obtain ⟨e, returned⟩ := failedTask_eq failed
  have fits := (returns_to_baseline (S := lldb)).2 ToolServer.new [] (.nil _) (by decide)
  have quiet : Quiet (ToolServer.new : ToolServer lldb) := fun t pc there => by cases there
  have clean :=
    returns_to_baseline.1 ToolServer.new s₁ s' 0 failing (.error e) _ quiet fits.1 called
    (run_of_exec run) returned ⟨e, rfl⟩
  have next : (ToolServer.new : ToolServer lldb).session.generation + 1 = 1 := by decide
  rw [next] at clean
  exact ⟨s', e, returned, clean⟩

end

end LldbDebugMcp.Server.Baseline
