/- module: LldbDebugMcp/Server/StartGuard
   source: crates/mcp-tools/src/handlers/lifecycle.rs, crates/mcp-tools/src/server.rs
   digest: The idle guard of launch and attach under concurrent calls. -/

import LldbDebugMcp.Server.Lldb

set_option autoImplicit false
set_option relaxedAutoImplicit false

namespace LldbDebugMcp.Server.StartGuard

open LldbDebugMcp.Core.Types
open LldbDebugMcp.Session.Manager
open LldbDebugMcp.Session.Operation
open LldbDebugMcp.Library.Transition
open LldbDebugMcp.Server.Contract
open LldbDebugMcp.Server.Handler
open LldbDebugMcp.Server.Lifecycle
open LldbDebugMcp.Server.System
open LldbDebugMcp.Server.Steps
open LldbDebugMcp.Server.Lldb

variable {S : Seam} {s s' : ToolServer S} {a : Action S} {t : Nat}

/-- A launch or attach gets past the idle guard in this step. -/
def Admits (s : ToolServer S) : Action S → Prop
  | .task t _ => s.session.state = .idle ∧ ∃ args, s.tasks t = some (.start (.guardIdle (.ok args)))
  | _ => False

/-- Some launch or attach is past the guard and has not set the state yet. -/
def Claiming (s : ToolServer S) : Prop := ∃ t args, s.tasks t = some (.start (.setConfiguring args))

/-- The guard lets a call through only while no other is between its guard and its write. -/
def OneAtATime (s : ToolServer S) (a : Action S) : Prop := Admits s a → ¬ Claiming s

/-- The session is taken: not idle, or claimed by a call that is about to make it so. -/
def Taken (s : ToolServer S) : Prop := s.session.state ≠ .idle ∨ Claiming s

private theorem taken_of_admits (admits : Admits s a) (taken : s.step a = some s') :
    Taken s' := by
  cases a with
  | task t choice =>
    obtain ⟨idle, args, here⟩ := admits
    obtain ⟨pc', conn, move, rfl⟩ := task_step taken here
    cases move with
    | start move =>
      cases move with
      | turnedAway busy => exact absurd idle busy
      | admitted => exact .inr ⟨t, args, by simp [Pc.ofGoto]⟩
  | _ => exact absurd admits id

/-- Only a reset gives a session back that is taken. -/
private theorem taken_kept (busy : Taken s) (taken : s.step a = some s') (still : ¬ Resets s a) :
    Taken s' := by
  rcases busy with active | ⟨t, args, here⟩
  · exact .inl (step_not_idle taken still active)
  · by_cases self : ∃ choice, a = .task t choice
    · obtain ⟨choice, rfl⟩ := self
      obtain ⟨pc', conn, move, rfl⟩ := task_step taken here
      exact .inl fun h => by cases h
    · exact .inr ⟨t, args, task_stays taken here fun choice h => self ⟨choice, h⟩⟩

private theorem not_admits_of_taken (busy : Taken s) (guarded : OneAtATime s a) : ¬ Admits s a := by
  intro admits
  rcases busy with active | claiming
  · cases a with
    | task t choice => exact active admits.1
    | _ => exact admits
  · exact guarded admits claiming

/-- The points from the guard to the handler's own reset or last write. -/
def busy : StartPc → Bool
  | .guardIdle _ | .connectResetOutput _ | .connectClear _ | .cleanupResetOutput _ => false
  | _ => true

/-- The points at which the handler relies on an empty slot. -/
def slotless : StartPc → Bool
  | .setConfiguring _ | .flushPending _ | .connecting _ | .connectReset _ | .setBackend _
  | .cleanupReset _ => true
  | _ => false

/-- No launch or attach is under way. -/
def Unclaimed (s : ToolServer S) : Prop := ∀ t p, s.tasks t = some (.start p) → busy p = false

/-- A disconnect resets the session only when the slot is empty and no launch or attach is under
way. -/
def Settled (s : ToolServer S) : Action S → Prop
  | .task t _ => s.tasks t = some (.disconnect .reset) → s.backend = none ∧ Unclaimed s
  | _ => True

/-- At most one launch or attach is under way, the session is not idle while it is, and the slot is
empty where nothing was stored. -/
structure Exclusive (s : ToolServer S) : Prop where
  one : ∀ t t' p p', s.tasks t = some (.start p) → busy p = true →
    s.tasks t' = some (.start p') → busy p' = true → t = t'
  active : ∀ t p, s.tasks t = some (.start p) → busy p = true →
    (∃ args, p = .setConfiguring args) ∨ s.session.state ≠ .idle
  empty : s.session.state = .idle → s.backend = none
  slot : ∀ t p, s.tasks t = some (.start p) → slotless p = true → s.backend = none

private theorem busy_of_slotless {p : StartPc} (h : slotless p = true) : busy p = true := by
  cases p <;> first | rfl | cases h

/-- The handler under way stays in an active session until its own reset. -/
private theorem active_step {p : StartPc} (inv : Exclusive s) (here : s.tasks t = some (.start p))
    (under : busy p = true) (still : p.operation ≠ some .resetInner) :
    (applyOption s.session p.operation).state ≠ .idle := by
  rcases inv.active t p here under with ⟨args, rfl⟩ | active
  · exact fun h => by cases h
  · exact @operation_not_idle _ (.start p) active still

private theorem slot_step {p p' : StartPc} {conn : Option (Nat × S.Conn)}
    (inv : Exclusive s) (here : s.tasks t = some (.start p)) (under : busy p = true)
    (move : p.Moves s.toWorld t (s.tokens t) (.at p') conn) (later : slotless p' = true) :
    p.slot t s.backend = none := by
  have slot := inv.slot t p here
  cases move with
  | admitted => cases under
  | configuredLaunch | configuredAttach | flushed | connected | connectFailed => exact slot rfl
  | cleanupClear => rfl
  | _ => cases later

/-- A step of the handler under way. -/
private theorem exclusive_busy {p : StartPc} {goto : Goto StartPc} {conn : Option (Nat × S.Conn)}
    (inv : Exclusive s) (here : s.tasks t = some (.start p)) (under : busy p = true)
    (move : p.Moves s.toWorld t (s.tokens t) goto conn) :
    Exclusive (s.goOn t (.start p) (.ofGoto .start goto) conn) := by
  have alone : ∀ t' p', t' ≠ t → s.tasks t' = some (.start p') → busy p' = false := by
    intro t' p' hne there
    rw [← Bool.not_eq_true]
    exact fun also => hne (inv.one t' t p' p there also here under)
  have at_t : ∀ t' p', (s.goOn t (.start p) (.ofGoto .start goto) conn).tasks t' =
      some (.start p') → busy p' = true → t' = t ∧ goto = .at p' := by
    intro t' p' there also
    rcases tasks_goOn there with ⟨hne, old⟩ | ⟨rfl, eq⟩
    · rw [alone t' p' hne old] at also
      cases also
    · exact ⟨rfl, ofGoto_start eq⟩
  have not_reset : ∀ p', goto = .at p' → busy p' = true → p.operation ≠ some .resetInner := by
    rintro p' rfl also reset
    cases move with
    | connectReset | cleanupReset => cases also
    | setPid =>
      rename_i target
      cases target <;> cases reset
    | _ => cases reset
  constructor
  · intro t₁ t₂ p₁ p₂ there₁ also₁ there₂ also₂
    rw [(at_t t₁ p₁ there₁ also₁).1, (at_t t₂ p₂ there₂ also₂).1]
  · intro t' p' there also
    obtain ⟨rfl, eq⟩ := at_t t' p' there also
    exact .inr (active_step inv here under (not_reset p' eq also))
  · intro idle
    change p.slot t s.backend = none
    by_cases reset : p.operation = some .resetInner
    · have slot := inv.slot t p here
      cases p with
      | connectReset | cleanupReset => exact slot rfl
      | setPid plan outcome target => cases target <;> cases reset
      | _ => cases reset
    · exact absurd idle (active_step inv here under reset)
  · intro t' p' there later
    obtain ⟨rfl, rfl⟩ := at_t t' p' there (busy_of_slotless later)
    exact slot_step inv here under move later

/-- What a handler before its guard or after its reset does: it leaves the state alone and
fills no slot, and it comes under way only by getting past the guard. -/
private theorem quiet_step {p : StartPc} {goto : Goto StartPc} {conn : Option (Nat × S.Conn)}
    (quiet : busy p = false) (move : p.Moves s.toWorld t (s.tokens t) goto conn) :
    (applyOption s.session p.operation).state = s.session.state ∧
    (s.backend = none → p.slot t s.backend = none) ∧
    ∀ p', goto = .at p' → busy p' = true →
      s.session.state = .idle ∧ ∃ args, p = .guardIdle (.ok args) ∧ p' = .setConfiguring args := by
  cases move with
  | turnedAway | badArgs | connectClear | cleanupResetOutput =>
    exact ⟨rfl, fun h => by first | exact h | rfl, fun p' h => by cases h⟩
  | @admitted args idle =>
    refine ⟨rfl, id, fun p' h _ => ⟨idle, args, rfl, ?_⟩⟩
    cases h
    rfl
  | connectResetOutput =>
    refine ⟨rfl, id, fun p' h also => ?_⟩
    cases h
    cases also
  | _ => cases quiet

/-- A step of a handler before its guard or after its reset. -/
private theorem exclusive_quiet {choice : Choice S} {p : StartPc} {goto : Goto StartPc}
    {conn : Option (Nat × S.Conn)} (inv : Exclusive s) (here : s.tasks t = some (.start p))
    (quiet : busy p = false) (move : p.Moves s.toWorld t (s.tokens t) goto conn)
    (guarded : OneAtATime s (.task t choice)) :
    Exclusive (s.goOn t (.start p) (.ofGoto .start goto) conn) := by
  obtain ⟨state, slot, enters⟩ := quiet_step quiet move
  -- A handler that comes under way finds no other one under way.
  have alone : ∀ p', goto = .at p' → busy p' = true → ∀ t' q, s.tasks t' = some (.start q) →
      busy q = false := by
    intro p' eq also t' q there
    obtain ⟨idle, args, rfl, -⟩ := enters p' eq also
    rw [← Bool.not_eq_true]
    intro under
    rcases inv.active t' q there under with ⟨args', rfl⟩ | active
    · exact guarded ⟨idle, args, here⟩ ⟨t', args', there⟩
    · exact active idle
  have split : ∀ t' p', (s.goOn t (.start p) (.ofGoto .start goto) conn).tasks t' =
      some (.start p') → s.tasks t' = some (.start p') ∨ t' = t ∧ goto = .at p' := by
    intro t' p' there
    rcases tasks_goOn there with ⟨-, old⟩ | ⟨rfl, eq⟩
    · exact .inl old
    · exact .inr ⟨rfl, ofGoto_start eq⟩
  constructor
  · intro t₁ t₂ p₁ p₂ there₁ also₁ there₂ also₂
    rcases split t₁ p₁ there₁ with old₁ | ⟨rfl, eq₁⟩ <;>
      rcases split t₂ p₂ there₂ with old₂ | ⟨rfl, eq₂⟩
    · exact inv.one t₁ t₂ p₁ p₂ old₁ also₁ old₂ also₂
    · rw [alone p₂ eq₂ also₂ t₁ p₁ old₁] at also₁
      cases also₁
    · rw [alone p₁ eq₁ also₁ t₂ p₂ old₂] at also₂
      cases also₂
    · rfl
  · intro t' p' there also
    rcases split t' p' there with old | ⟨rfl, eq⟩
    · rw [goOn_session, show (Pc.start p).operation = p.operation from rfl, state]
      exact inv.active t' p' old also
    · obtain ⟨-, args, -, rfl⟩ := enters p' eq also
      exact .inl ⟨args, rfl⟩
  · intro idle
    exact slot (inv.empty (state.symm.trans idle))
  · intro t' p' there later
    rcases split t' p' there with old | ⟨rfl, eq⟩
    · exact slot (inv.slot t' p' old later)
    · exact slot (inv.empty (enters p' eq (busy_of_slotless later)).1)

private theorem exclusive_new : Exclusive (ToolServer.new : ToolServer S) where
  one t t' p p' h := by cases h
  active t p h := by cases h
  empty _ := rfl
  slot t p h := by cases h

/-- A launch or attach under way was there before, and neither slot nor state come to stand in its
way. -/
private theorem Exclusive.frame (inv : Exclusive s)
    (tasks : ∀ t p, s'.tasks t = some (.start p) → busy p = true → s.tasks t = some (.start p))
    (backend : s.backend = none → s'.backend = none)
    (state : s'.session.state = .idle → s.session.state = .idle) : Exclusive s' where
  one t t' p p' there under there' under' :=
    inv.one t t' p p' (tasks t p there under) under (tasks t' p' there' under') under'
  active t p there under :=
    (inv.active t p (tasks t p there under) under).imp_right fun active idle => active (state idle)
  empty idle := backend (inv.empty (state idle))
  slot t p there later := backend (inv.slot t p (tasks t p there (busy_of_slotless later)) later)

/-- The reset of a disconnect finds the server settled. -/
private theorem exclusive_settled (empty : s'.backend = none) (unclaimed : Unclaimed s') :
    Exclusive s' := by
  have none_busy : ∀ {t p}, s'.tasks t = some (.start p) → ¬ busy p = true := by
    intro t p there under
    cases (unclaimed t p there).symm.trans under
  exact ⟨fun t t' p p' there under => absurd under (none_busy there),
    fun t p there under => absurd under (none_busy there), fun _ => empty,
    fun t p there later => absurd (busy_of_slotless later) (none_busy there)⟩

private theorem Exclusive.step (inv : Exclusive s) (guarded : OneAtATime s a)
    (settled : Settled s a) (taken : s.step a = some s') : Exclusive s' := by
  have kept : ¬ Resets s a → s'.session.state = .idle → s.session.state = .idle := by
    intro still idle
    by_contra active
    exact step_not_idle taken still active idle
  cases moves_of_step taken with
  | @call t tool fresh =>
    refine inv.frame (fun t' p there under => ?_) id id
    rcases tasks_called there with old | ⟨-, entry⟩
    · exact old
    · cases tool with
      | start args =>
        cases entry
        cases under
      | disconnect | resume | pause => cases entry
  | @task t choice pc pc' conn here move =>
    -- the other handlers come to no point of a launch or attach
    have started : (∀ p, pc' ≠ .start p) → ∀ t' p, (s.goOn t pc pc' conn).tasks t' =
        some (.start p) → s.tasks t' = some (.start p) := by
      intro other t' p there
      rcases tasks_goOn there with ⟨-, old⟩ | ⟨-, eq⟩
      · exact old
      · exact absurd eq (other p)
    cases move with
    | @start p goto conn move =>
      cases under : busy p with
      | true => exact exclusive_busy inv here under move
      | false => exact exclusive_quiet inv here under move guarded
    | @disconnect p goto conn move =>
      have starts := started fun q eq => by cases goto <;> cases eq
      cases p with
      | reset =>
        obtain ⟨empty, unclaimed⟩ := settled here
        exact exclusive_settled empty fun t' q there => unclaimed t' q (starts t' q there)
      | takeBackend =>
        have still : ¬ Resets s (.task t choice) := by
          rw [resets_task, taskOperation_of here]
          exact nofun
        exact inv.frame (fun t' q there _ => starts t' q there) (fun _ => rfl) (kept still)
      | guardActive | currentBackend | disconnecting | resetOutput =>
        have still : ¬ Resets s (.task t choice) := by
          rw [resets_task, taskOperation_of here]
          exact nofun
        exact inv.frame (fun t' q there _ => starts t' q there) id (kept still)
    | @resume p goto conn move =>
      have still : ¬ Resets s (.task t choice) := by
        rw [resets_task, taskOperation_of here]
        cases p <;> exact nofun
      have old := started fun q eq => by cases goto <;> cases eq
      exact inv.frame (fun t' q there _ => old t' q there) id (kept still)
    | @pause p goto conn move =>
      have still : ¬ Resets s (.task t choice) := by
        rw [resets_task, taskOperation_of here]
        exact nofun
      have old := started fun q eq => by cases goto <;> cases eq
      exact inv.frame (fun t' q there _ => old t' q there) id (kept still)
  | cancelToken | conn | pump | bookkeeping =>
    exact inv.frame (fun _ _ there _ => there) id (kept id)

/-- Provided that no call gets past the idle guard while another stands between the guard and
its write of the state, two calls get past it only with a reset in between. Provided also that every
reset of a disconnect finds the slot empty and no launch or attach under way, `set_backend` always
finds the slot empty, and at most one launch or attach is under way, whatever else is called. -/
theorem start_guard_exclusive :
    (∀ (s₁ s₂ s₃ : ToolServer S) (a₁ a₂ : Action S) (as : List (Action S)), Admits s₁ a₁ →
      s₁.step a₁ = some s₂ →
      Run ToolServer.step (fun s a => OneAtATime s a ∧ ¬ Resets s a) s₂ as s₃ →
      OneAtATime s₃ a₂ → ¬ Admits s₃ a₂) ∧
    (∀ (s : ToolServer S) (as : List (Action S)),
      Run ToolServer.step (fun s a => OneAtATime s a ∧ Settled s a) ToolServer.new as s →
      (∀ t plan, s.tasks t = some (.start (.setBackend plan)) → s.backend = none) ∧
      ∀ t t' p p', s.tasks t = some (.start p) → busy p = true →
        s.tasks t' = some (.start p') → busy p' = true → t = t') := by
  constructor
  · intro s₁ s₂ s₃ a₁ a₂ as admits first run guarded
    have taken : Taken s₃ := run.keeps (I := Taken)
      (fun _ _ _ busy allowed taken => taken_kept busy taken allowed.2)
      (taken_of_admits admits first)
    exact not_admits_of_taken taken guarded
  · intro s as run
    have inv : Exclusive s := run.keeps (I := Exclusive)
      (fun _ _ _ inv allowed taken => inv.step allowed.1 allowed.2 taken) exclusive_new
    exact ⟨fun t plan here => inv.slot t _ here rfl, inv.one⟩

/-- The task is a launch or attach at its guard, with valid arguments. -/
def atGuard (s : ToolServer S) (t : Nat) : Bool :=
  (s.tasks t).any fun
    | .start (.guardIdle (.ok _)) => true
    | _ => false

/-- The task is about to store its backend. -/
def atSetBackend (s : ToolServer S) (t : Nat) : Bool :=
  (s.tasks t).any fun
    | .start (.setBackend _) => true
    | _ => false

private theorem admits_of_atGuard {choice : Choice S} (idle : s.session.state = .idle)
    (h : atGuard s t = true) : Admits s (.task t choice) := by
  obtain ⟨pc, here, h⟩ := (Option.any_eq_true _ _).mp h
  refine ⟨idle, ?_⟩
  split at h
  · exact ⟨_, here⟩
  · cases h

private theorem atSetBackend_eq (h : atSetBackend s t = true) :
    ∃ plan, s.tasks t = some (.start (.setBackend plan)) := by
  obtain ⟨pc, here, h⟩ := (Option.any_eq_true _ _).mp h
  split at h
  · exact ⟨_, here⟩
  · cases h

/-- Only launch and attach are called. -/
def OnlyStarts (_ : ToolServer S) : Action S → Prop
  | .call _ (.start _) => True
  | .call _ _ => False
  | _ => True

instance : (a : Action S) → Decidable (OnlyStarts s a)
  | .call _ (.start _) => .isTrue trivial
  | .call _ (.disconnect _) | .call _ (.resume _) | .call _ .pause => .isFalse id
  | .cancelToken _ | .task .. | .conn .. | .pump .. | .bookkeeping _ => .isTrue trivial

/-- Two launches, of which neither has taken a step. -/
def twoLaunches : List (Action lldb) :=
  [.call 0 (.start (.ok (.launch ⟨"/bin/demo", [], "", [], false⟩))),
    .call 1 (.start (.ok (.launch ⟨"/bin/demo", [], "", [], false⟩)))]

/-- Two launches read the idle state before either writes it; then each connects. -/
def bothConnect : List (Action lldb) :=
  [.task 1 .go] ++ proceed 0 2 ++ [.task 0 (.connected none)] ++ proceed 0 1 ++ proceed 1 2 ++
    [.task 1 (.connected none)]

private theorem both_admitted :
    ∃ s₁ s₂ s₃ : ToolServer lldb, Run ToolServer.step OnlyStarts ToolServer.new twoLaunches s₁ ∧
      Admits s₁ (.task 0 .go) ∧ s₁.step (.task 0 .go) = some s₂ ∧ Admits s₂ (.task 1 .go) ∧
      Run ToolServer.step OnlyStarts s₂ bothConnect s₃ ∧
      (∃ plan, s₃.tasks 1 = some (.start (.setBackend plan))) ∧ s₃.backend = some 0 := by
  have eval : ((exec ToolServer.step OnlyStarts (ToolServer.new : ToolServer lldb)
      twoLaunches).bind fun s₁ => (s₁.step (.task 0 .go)).bind fun s₂ =>
        (exec ToolServer.step OnlyStarts s₂ bothConnect).map fun s₃ =>
          ((s₁.session.state, atGuard s₁ 0), (s₂.session.state, atGuard s₂ 1),
            atSetBackend s₃ 1, s₃.backend)) =
      some ((.idle, true), (.idle, true), true, some 0) := by
    decide +kernel
  obtain ⟨s₁, first, rest⟩ := Option.bind_eq_some_iff.mp eval
  obtain ⟨s₂, step₁, rest⟩ := Option.bind_eq_some_iff.mp rest
  obtain ⟨s₃, second, eq⟩ := Option.map_eq_some_iff.mp rest
  obtain ⟨guard₁, eq⟩ := Prod.mk.inj eq
  obtain ⟨guard₂, eq⟩ := Prod.mk.inj eq
  obtain ⟨store, slot⟩ := Prod.mk.inj eq
  exact ⟨s₁, s₂, s₃, run_of_exec first,
    admits_of_atGuard (Prod.mk.inj guard₁).1 (Prod.mk.inj guard₁).2, step₁,
    admits_of_atGuard (Prod.mk.inj guard₂).1 (Prod.mk.inj guard₂).2, run_of_exec second,
    atSetBackend_eq store, slot⟩

/-- Without the proviso both parts fail: two launches get past the guard with no reset in
between, and the second stores its backend over the first's. -/
theorem start_guard_not_exclusive :
    (¬ ∀ (s₁ s₂ s₃ : ToolServer lldb) (a₁ a₂ : Action lldb) (as : List (Action lldb)),
      Reach ToolServer.step ToolServer.new s₁ → Admits s₁ a₁ → s₁.step a₁ = some s₂ →
      Run ToolServer.step (fun s a => ¬ Resets s a) s₂ as s₃ → ¬ Admits s₃ a₂) ∧
    ¬ ∀ (s : ToolServer lldb) (as : List (Action lldb)),
      Run ToolServer.step OnlyStarts ToolServer.new as s →
      ∀ t plan, s.tasks t = some (.start (.setBackend plan)) → s.backend = none := by
  obtain ⟨s₁, s₂, s₃, first, admits₁, step₁, admits₂, second, ⟨plan, store⟩, slot⟩ := both_admitted
  constructor
  · intro exclusive
    exact exclusive s₁ s₂ s₂ _ _ [] ⟨_, first.any⟩ admits₁ step₁ (.nil s₂) admits₂
  · intro slotEmpty
    have only : OnlyStarts s₁ (.task 0 .go) := trivial
    have run := first.append (.cons only step₁ second)
    cases (slotEmpty s₃ _ run 1 plan store).symm.trans slot

/-- The task is between the guard and its write of the state. -/
def claims (s : ToolServer S) (t : Nat) : Bool :=
  (s.tasks t).any fun
    | .start (.setConfiguring _) => true
    | _ => false

/-- The task is a launch or attach under way. -/
def underWay (s : ToolServer S) (t : Nat) : Bool :=
  (s.tasks t).any fun
    | .start p => busy p
    | _ => false

/-- Whether a step meets both provisos, when only these tasks are there. -/
def orderly (ts : List Nat) (s : ToolServer lldb) : Action lldb → Bool
  | .task t _ =>
    (s.session.state != .idle || !atGuard s t || ts.all fun t' => !claims s t') &&
      (!resetting s t || s.backend.isNone && ts.all fun t' => !underWay s t')
  | _ => true

private theorem oneAtATime_of_orderly {s : ToolServer lldb} {a : Action lldb} {ts : List Nat}
    (among : Among ts s) (ordered : orderly ts s a = true) : OneAtATime s a := by
  intro admits
  cases a with
  | task t choice =>
    obtain ⟨idle, args, here⟩ := admits
    have guard : atGuard s t = true := by
      rw [atGuard, here]
      rfl
    simp only [orderly, idle, guard, Bool.and_eq_true] at ordered
    rintro ⟨t', args', there⟩
    have mem : t' ∈ ts := by
      by_contra other
      cases (among t' other).symm.trans there
    have claim : claims s t' = true := by
      rw [claims, there]
      rfl
    have none := List.all_eq_true.mp ordered.1 t' mem
    rw [claim] at none
    cases none
  | _ => exact absurd admits id

private theorem settled_of_orderly {s : ToolServer lldb} {a : Action lldb} {ts : List Nat}
    (among : Among ts s) (ordered : orderly ts s a = true) : Settled s a := by
  cases a with
  | task t choice =>
    intro here
    have reset : resetting s t = true := by
      rw [resetting, here]
      rfl
    simp only [orderly, reset, Bool.not_true, Bool.false_or, Bool.and_eq_true] at ordered
    refine ⟨Option.isNone_iff_eq_none.mp ordered.2.1, fun t' p there => ?_⟩
    have mem : t' ∈ ts := by
      by_contra other
      cases (among t' other).symm.trans there
    have idle := List.all_eq_true.mp ordered.2.2 t' mem
    rw [underWay, there] at idle
    exact Bool.not_eq_true _ ▸ (by simpa using idle)
  | _ => trivial

/-- A session from its launch to its disconnect, and a second launch that is about to store its
backend. -/
def twoSessions : List (Action lldb) :=
  launchCall 0 false ++ handshake 0 false ++ launchRunning 0 ++ disconnected 1 0 5 ++
    (launchCall 2 false).take 5

theorem start_guard_exclusive_sessions :
    ∃ s : ToolServer lldb,
      Run ToolServer.step (fun s a => OneAtATime s a ∧ Settled s a) ToolServer.new
        twoSessions s ∧ atSetBackend s 2 = true ∧ s.backend = none ∧
      (∀ t, (∃ plan, s.tasks t = some (.start (.setBackend plan))) → t = 2) := by
  have eval : ((exec ToolServer.step (fun s a => orderly [0, 1, 2] s a = true)
      (ToolServer.new : ToolServer lldb) twoSessions).map fun s => atSetBackend s 2) =
      some true := by
    decide +kernel
  obtain ⟨s, executed, store⟩ := Option.map_eq_some_iff.mp eval
  have run := (among_new [0, 1, 2]).run_of_checked
    (P := fun s a => OneAtATime s a ∧ Settled s a) (by decide)
    (fun s a among ordered =>
      ⟨oneAtATime_of_orderly among ordered, settled_of_orderly among ordered⟩)
    executed
  obtain ⟨plan, here⟩ := atSetBackend_eq store
  obtain ⟨empty, one⟩ := start_guard_exclusive.2 s _ run
  exact ⟨s, run, store, empty 2 plan here, fun t ⟨plan', there⟩ => one t 2 _ _ there rfl here rfl⟩

end LldbDebugMcp.Server.StartGuard
