/- module: LldbDebugMcp/Backend/Reports
   source: crates/lldb-backend/src/backend.rs, crates/dap-client/src/{read_loop,stop_waiter}.rs
   digest: The stops and exit codes that replies report, against the events that were read. -/

import LldbDebugMcp.Backend.StopWaiter
import LldbDebugMcp.Library.Delivery

set_option autoImplicit false
set_option relaxedAutoImplicit false

namespace LldbDebugMcp.Backend.Reports

open LldbDebugMcp.Core.Types
open LldbDebugMcp.Client.Message
open LldbDebugMcp.Client.State
open LldbDebugMcp.Client.ReadLoop
open LldbDebugMcp.Library.Channel
open LldbDebugMcp.Library.Delivery
open LldbDebugMcp.Library.Effect
open LldbDebugMcp.Backend.Operations
open LldbDebugMcp.Backend.Adapter
open LldbDebugMcp.Backend.Steps
open LldbDebugMcp.Backend.Parts
open LldbDebugMcp.Backend.StopWaiter

/-- An outcome that an event of its own announces. The others are made up where the debuggee
or the connection is gone. -/
def told : StopOutcome → Bool
  | .stopped _ | .exited (some _) => true
  | .exited none | .terminated => false

/-- The outcome that a message announces. -/
def announces : DapMessage → Option StopOutcome
  | .event (.stopped body) => some (.stopped (stopInfoFromEvent body))
  | .event (.exited body) => some (.exited (some body.exitCode))
  | _ => none

/-- What an action makes known of the debuggee. -/
def announced : Action → List StopOutcome
  | .act (.receive message) => (announces message).toList
  | _ => []

def onLaunch : LaunchOutcome → Option StopOutcome
  | .stopped info => some (.stopped info)
  | .exited (some code) => some (.exited (some code))
  | .running | .exited none => none

def onAttach : AttachOutcome → Option StopOutcome
  | .stopped info => some (.stopped info)
  | .exited (some code) => some (.exited (some code))
  | .exited none | .terminated => none

def onResume : StopOutcome → Option StopOutcome
  | .stopped info => some (.stopped info)
  | .exited (some code) => some (.exited (some code))
  | .exited none | .terminated => none

/-- The stop or the exit code that a reply reports. -/
def reported : Reply → Option StopOutcome
  | .launch (.ok outcome) => onLaunch outcome
  | .attach (.ok outcome) => onAttach outcome
  | .resume (.ok outcome) => onResume outcome
  | _ => none

theorem told_of_reported {reply : Reply} {v : StopOutcome} (h : reported reply = some v) :
    told v = true := by
  unfold reported at h
  split at h
  · rename_i outcome
    rcases outcome with info | _ | (_ | code) <;> cases h <;> rfl
  · rename_i outcome
    rcases outcome with info | (_ | code) | _ <;> cases h <;> rfl
  · rename_i outcome
    rcases outcome with info | (_ | code) | _ <;> cases h <;> rfl
  · cases h

/-! Every call reports what its waiter was sent. -/

/-- A call has received what it reports. -/
def Received {α : Type} (report : α → Option StopOutcome) (g : Hearing) (value : α) : Prop :=
  ∀ v, report value = some v → g = .heard (some v)

private theorem received_part {α : Type} {report : α → Option StopOutcome} {x : Checked α}
    (part : Part .deaf (Received report) x) {reply : Except BackendError α → Reply}
    (failed : ∀ e, reported (reply (.error e)) = none)
    (succeeded : ∀ value, reported (reply (.ok value)) = report value) :
    Program.Safe hearingOk hearingAfter (Received reported) .deaf
      (x.run.bind fun r => .done (reply r)) := by
  refine Program.Safe.bind part fun g r h => ?_
  cases r with
  | error e => exact fun v eq => by cases (failed e).symm.trans eq
  | ok value => exact fun v eq => h v ((succeeded value).symm.trans eq)

private theorem received_resume (request : Request) :
    Part .deaf (Received onResume) (resumeAndWait request) := by
  refine ⟨trivial, fun _ => ⟨trivial, fun r => ?_⟩⟩
  cases r with
  | error e => exact .inr rfl
  | ok message =>
    refine ⟨trivial, fun r => ?_⟩
    rcases r with _ | (info | (_ | code) | _) <;> intro v eq <;> cases eq <;> rfl

theorem call_received (call : Call) :
    Program.Safe hearingOk hearingAfter (Received reported) .deaf call.program := by
  cases call with
  | launch spec =>
    refine @received_part _ onLaunch _ (part_launch spec ⟨trivial, fun r => ?_⟩ ?_) .launch
      (fun _ => rfl) fun _ => rfl
    · rcases r with _ | (info | (_ | code) | _) <;> intro v eq <;> cases eq <;> rfl
    · exact fun v eq => by cases eq
  | attach spec =>
    refine @received_part _ onAttach _ (part_attach spec ⟨trivial, fun r => ?_⟩) .attach
      (fun _ => rfl) fun _ => rfl
    rcases r with _ | (info | (_ | code) | _) <;> intro v eq <;> cases eq <;> rfl
  | cont threadId =>
    exact @received_part _ _ _ (received_resume _) .resume (fun _ => rfl) fun _ => rfl
  | step kind threadId gran =>
    exact @received_part _ _ _ (received_resume _) .resume (fun _ => rfl) fun _ => rfl
  | pause =>
    refine Program.Safe.bind (stays_pause asks_deaf) fun g r h => ?_
    exact fun v eq => by cases eq
  | disconnect terminate =>
    refine ⟨trivial, fun _ => ⟨trivial, fun taken => ?_⟩⟩
    cases taken with
    | true => exact ⟨trivial, fun _ => ⟨trivial, fun _ => fun v eq => by cases eq⟩⟩
    | false => exact fun v eq => by cases eq

variable {c c' : Connection} {f f' : Fut} {choice : Choice} {a : Action} {t w : Nat}

theorem Served.received (served : Served c) (here : c.calls t = some f) :
    ∃ g, Program.Safe hearingOk hearingAfter (Received reported) g f.program ∧ HeardAt c f g :=
  served.calls
    (J := fun c f => ∃ g, Program.Safe hearingOk hearingAfter (Received reported) g f.program ∧
      HeardAt c f g)
    (fun _ call => ⟨.deaf, call_received call, rfl⟩)
    (fun _ _ _ _ ⟨g, safe, at_g⟩ moves => ⟨g, safe, at_g.moves moves rfl⟩)
    (fun _ _ _ _ _ _ served here advances hears =>
      hears_poll served.sound here hears (.poll here advances) (listens advances)) t f here

/-- A reply that reports something reports what the waiter of its call was sent. -/
theorem Served.sent {reply : Reply} {v : StopOutcome} (served : Served c)
    (here : c.calls t = some f) (done : f.program = .done reply)
    (report : reported reply = some v) :
    ∃ w, f.waiter = some w ∧ Answered w (.sent v) c.link.shared := by
  obtain ⟨g, safe, at_g⟩ := Served.received served here
  rw [done] at safe
  obtain rfl := safe v report
  obtain ⟨w, o, waiter, answered, settled⟩ := at_g
  cases o with
  | empty | closed => cases settled
  | sent v' =>
    obtain rfl := Option.some.inj (Option.some.inj settled)
    exact ⟨w, waiter, answered⟩

/-! The slot of the stop waiter, and the waiters of the calls. -/

/-- What a move does to the slot and to the waiters. -/
inductive SlotMoves (c : Connection) (a : Action) (c' : Connection) : Prop where
  /-- Calls come and go, and each keeps its waiter. -/
  | stays (slot : c'.link.shared.stopWaiter = c.link.shared.stopWaiter)
      (calls : ∀ t f', c'.calls t = some f' →
        f'.waiter = none ∨ ∃ f, c.calls t = some f ∧ f'.waiter = f.waiter)
  | registers (t : Nat) (slot : c'.link.shared.stopWaiter = c.link.shared.stopWaiter.register.2)
      (mine : ∀ f', c'.calls t = some f' → f'.waiter = some c.link.shared.stopWaiter.next)
      (others : ∀ u, u ≠ t → c'.calls u = c.calls u)
  | sends (v : StopOutcome) (slot : c'.link.shared.stopWaiter = c.link.shared.stopWaiter.send v)
      (known : told v = true → announced a = [v]) (calls : c'.calls = c.calls)

private theorem stays_of_calls (slot : c'.link.shared.stopWaiter = c.link.shared.stopWaiter)
    (calls : c'.calls = c.calls) : SlotMoves c a c' :=
  .stays slot fun _ f' there => .inr ⟨f', calls ▸ there, rfl⟩

/-- One call is replaced, by one that has no waiter or the same. -/
private theorem stays_of_call {call : Option Fut}
    (slot : c'.link.shared.stopWaiter = c.link.shared.stopWaiter)
    (calls : c'.calls = Function.update c.calls t call)
    (waiter : ∀ f', call = some f' →
      f'.waiter = none ∨ ∃ f, c.calls t = some f ∧ f'.waiter = f.waiter) : SlotMoves c a c' := by
  refine .stays slot fun u f' there => ?_
  rw [calls] at there
  by_cases mine : u = t
  · subst mine
    rw [Function.update_self] at there
    exact waiter f' there
  · rw [Function.update_of_ne mine] at there
    exact .inr ⟨f', there, rfl⟩

private theorem slotMoves_poll (here : c.calls t = some f) (advances : Advances c f choice c' f') :
    SlotMoves c a (c'.setCall t (some f')) := by
  have kept : ∀ {k : Connection}, k.link.shared.stopWaiter = c.link.shared.stopWaiter →
      k.calls = c.calls → f'.waiter = f.waiter → SlotMoves c a (k.setCall t (some f')) := by
    intro k slot calls same
    have updated : (k.setCall t (some f')).calls = Function.update c.calls t (some f') := by
      rw [← calls]
      rfl
    refine stays_of_call slot updated fun g eq => ?_
    obtain rfl := Option.some.inj eq
    exact .inr ⟨f, here, same⟩
  cases advances with
  | registeredStop ready at_ =>
    refine .registers t rfl (fun g there => ?_) fun u other => Function.update_of_ne other _ _
    simp only [Connection.setCall, Function.update_self] at there
    obtain rfl := Option.some.inj there
    rfl
  | parked ready at_ unfired =>
    refine kept ?_ rfl rfl
    simp [Connection.setShared, Shared.waitInitialized, unfired]
  | refused | refusedAsync => exact kept (removePending_stopWaiter _ _) rfl rfl
  | _ => exact kept rfl rfl rfl

private theorem slotMoves_receive {message : DapMessage} :
    SlotMoves c (.act (.receive message)) (c.setLink (c.link.dispatch message)) := by
  cases message with
  | response response =>
    refine stays_of_calls ?_ rfl
    simp only [Connection.setLink, Link.dispatch, Shared.dispatchResponse]
    split <;> rfl
  | event event =>
    cases event with
    | stopped body => exact .sends _ rfl (fun _ => rfl) rfl
    | exited body => exact .sends _ rfl (fun _ => rfl) rfl
    | terminated =>
      refine stays_of_calls ?_ rfl
      simp [Connection.setLink, Link.dispatch, Link.dispatchEvent]
    | _ => exact stays_of_calls rfl rfl
  | other envelope => exact stays_of_calls rfl rfl

theorem slotMoves_of_moves (moves : Moves c a c') : SlotMoves c a c' := by
  cases moves with
  | start fresh => exact stays_of_call rfl rfl fun g eq => .inl (by cases eq; rfl)
  | @cancel t f =>
    have slot : (c.dropFut f).link.shared.stopWaiter = c.link.shared.stopWaiter := by
      unfold Connection.dropFut
      split
      · exact removePending_stopWaiter _ _
      · exact removePending_stopWaiter _ _
      · rfl
    have updated : ((c.dropFut f).setCall t none).calls = Function.update c.calls t none := by
      rw [← (pollStep_dropFut c f).calls]
      rfl
    exact stays_of_call slot updated nofun
  | finish here done => exact stays_of_call rfl rfl nofun
  | poll here advances => exact slotMoves_poll here advances
  | receive => exact slotMoves_receive
  | proceed proceeds =>
    unfold Link.proceed at proceeds
    split at proceeds <;> cases proceeds
    · exact .sends .terminated rfl nofun rfl
    · exact .sends .terminated rfl nofun rfl
    · exact stays_of_calls (by simp [Connection.setLink]) rfl
  | pullOutput | pullTerminated | readError | childExit | stderr => exact stays_of_calls rfl rfl

/-! The books of a connection. -/

/-- What has been announced and what has been reported, against the slot and the calls. What is
reported is what different waiters were sent, and no call in flight holds one of these. -/
structure Books (news reports : List StopOutcome) (c : Connection) : Prop where
  heard : ((delivered c.link.shared.stopWaiter).filter told).Subperm news
  paid : ∃ taken : List (Nat × StopOutcome), reports = taken.map Prod.snd ∧
    (taken.map Prod.fst).Nodup ∧
    ∀ e ∈ taken, told e.2 = true ∧ Answered e.1 (.sent e.2) c.link.shared ∧
      ∀ t f, c.calls t = some f → f.waiter ≠ some e.1
  apart : ∀ t u f g w, c.calls t = some f → c.calls u = some g → f.waiter = some w →
    g.waiter = some w → t = u

variable {news reports : List StopOutcome}

theorem books_new (news : List StopOutcome) (pid : Option Int) :
    Books news [] (Connection.new pid) where
  heard := List.nil_subperm
  paid := ⟨[], rfl, .nil, nofun⟩
  apart t u f g w h := by cases h

theorem Books.more (books : Books news reports c) (later : List StopOutcome) :
    Books (news ++ later) reports c :=
  { books with heard := books.heard.trans (List.sublist_append_left _ _).subperm }

/-- No outcome is reported more often than it was announced. -/
theorem Books.balance (books : Books news reports c) : reports.Subperm news := by
  obtain ⟨taken, rfl, once, paid⟩ := books.paid
  have sent := subperm_delivered once fun e mem =>
    ⟨(paid e mem).2.1.registered, (paid e mem).2.1.outcome⟩
  have all : (taken.map Prod.snd).filter told = taken.map Prod.snd :=
    List.filter_eq_self.mpr fun v mem => by
      obtain ⟨e, he, rfl⟩ := List.mem_map.mp mem
      exact (paid e he).1
  rw [← all]
  exact (sent.filter told).trans books.heard

/-- Every move keeps the books, with what it announces. -/
theorem Books.moves (books : Books news reports c) (sound : Sound c) (moves : Moves c a c') :
    Books (news ++ announced a) reports c' := by
  have more : news.Subperm (news ++ announced a) := (List.sublist_append_left _ _).subperm
  have slotSound := sound.link.shared.stopWaiter
  obtain ⟨taken, rfl, once, paid⟩ := books.paid
  -- what was reported stays so, as long as no call in flight gets hold of its waiter
  have kept : (∀ e ∈ taken, ∀ t f, c'.calls t = some f → f.waiter ≠ some e.1) →
      ∃ taken' : List (Nat × StopOutcome), taken.map Prod.snd = taken'.map Prod.snd ∧
        (taken'.map Prod.fst).Nodup ∧
        ∀ e ∈ taken', told e.2 = true ∧ Answered e.1 (.sent e.2) c'.link.shared ∧
          ∀ t f, c'.calls t = some f → f.waiter ≠ some e.1 := fun free =>
    ⟨taken, rfl, once, fun e mem =>
      ⟨(paid e mem).1, (paid e mem).2.1.moves moves, free e mem⟩⟩
  cases slotMoves_of_moves moves with
  | stays slot calls =>
    have old : ∀ {t f w}, c'.calls t = some f → f.waiter = some w →
        ∃ g, c.calls t = some g ∧ g.waiter = some w := by
      intro t f w there waiter
      rcases calls t f there with idle | ⟨g, here, same⟩
      · cases idle.symm.trans waiter
      · exact ⟨g, here, same.symm.trans waiter⟩
    refine ⟨slot ▸ books.heard.trans more, kept fun e mem t f there waiter => ?_, ?_⟩
    · obtain ⟨g, here, waiter'⟩ := old there waiter
      exact (paid e mem).2.2 t g here waiter'
    · intro t u f g w ht hu wt wu
      obtain ⟨f', ht', wt'⟩ := old ht wt
      obtain ⟨g', hu', wu'⟩ := old hu wu
      exact books.apart t u f' g' w ht' hu' wt' wu'
  | registers t slot mine others =>
    have known : ∀ {u f w}, c.calls u = some f → f.waiter = some w →
        w < c.link.shared.stopWaiter.next := fun here waiter =>
      (sound.calls _ _ here).waiter _ waiter
    refine ⟨?_, kept fun e mem u f there waiter => ?_, ?_⟩
    · rw [slot, delivered_register slotSound]
      exact books.heard.trans more
    · by_cases same : u = t
      · subst same
        have fresh : e.1 = c.link.shared.stopWaiter.next :=
          Option.some.inj (waiter.symm.trans (mine f there))
        have older := (paid e mem).2.1.registered
        omega
      · exact (paid e mem).2.2 u f (others u same ▸ there) waiter
    · -- the waiter of the call that registers is newer than that of any other
      intro u v f g w hu hv wu wv
      by_cases isU : u = t
      · by_cases isV : v = t
        · exact isU.trans isV.symm
        · subst isU
          have fresh := Option.some.inj (wu.symm.trans (mine f hu))
          have older := known (others v isV ▸ hv) wv
          omega
      · by_cases isV : v = t
        · subst isV
          have fresh := Option.some.inj (wv.symm.trans (mine g hv))
          have older := known (others u isU ▸ hu) wu
          omega
        · exact books.apart u v f g w (others u isU ▸ hu) (others v isV ▸ hv) wu wv
  | sends v slot known calls =>
    refine ⟨?_, kept fun e mem t f there => (paid e mem).2.2 t f (calls ▸ there), ?_⟩
    · rw [slot]
      have grown := (delivered_send_subperm slotSound (v := v)).filter told
      refine grown.trans ?_
      cases is : told v with
      | true =>
        rw [List.filter_cons_of_pos is, known is]
        exact ((List.subperm_cons v).mpr books.heard).trans
          (List.perm_append_singleton v news).symm.subperm
      | false =>
        rw [List.filter_cons_of_neg (by simp [is])]
        exact books.heard.trans more
    · intro t u f g w ht hu
      rw [calls] at ht hu
      exact books.apart t u f g w ht hu

/-- A reply that is taken is entered. -/
theorem Books.finish {reply : Reply} (books : Books news reports c) (served : Served c)
    (here : c.calls t = some f) (done : f.program = .done reply) :
    Books news (reports ++ (reported reply).toList) (c.setCall t none) := by
  have gone : ∀ {u : Nat} {g : Fut}, (c.setCall t none).calls u = some g →
      u ≠ t ∧ c.calls u = some g := by
    intro u g there
    change Function.update c.calls t none u = some g at there
    by_cases same : u = t
    · subst same
      rw [Function.update_self] at there
      cases there
    · rw [Function.update_of_ne same] at there
      exact ⟨same, there⟩
  obtain ⟨taken, rfl, once, paid⟩ := books.paid
  refine ⟨books.heard, ?_, fun u v f g w hu hv => books.apart u v f g w (gone hu).2 (gone hv).2⟩
  cases report : reported reply with
  | none =>
    refine ⟨taken, List.append_nil _, once, fun e mem => ?_⟩
    exact ⟨(paid e mem).1, (paid e mem).2.1, fun u g there => (paid e mem).2.2 u g (gone there).2⟩
  | some v =>
    obtain ⟨w, waiter, answered⟩ := Served.sent served here done report
    have fresh : w ∉ taken.map Prod.fst := fun mem => by
      obtain ⟨e, he, rfl⟩ := List.mem_map.mp mem
      exact (paid e he).2.2 t f here waiter
    refine ⟨taken ++ [(w, v)], by simp, ?_, ?_⟩
    · rw [List.map_append, List.nodup_append]
      refine ⟨once, by simp, fun x hx y hy eq => fresh ?_⟩
      obtain rfl : y = w := by simpa using hy
      exact eq ▸ hx
    · intro e mem
      rcases List.mem_append.mp mem with old | new
      · exact ⟨(paid e old).1, (paid e old).2.1,
          fun u g there => (paid e old).2.2 u g (gone there).2⟩
      · obtain rfl := List.mem_singleton.mp new
        refine ⟨told_of_reported report, answered, fun u g there waiter' => ?_⟩
        exact (gone there).1 (books.apart u t g f w (gone there).2 here waiter' waiter)

end LldbDebugMcp.Backend.Reports
