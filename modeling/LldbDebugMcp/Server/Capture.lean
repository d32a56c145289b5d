/- module: LldbDebugMcp/Server/Capture
   source: crates/dap-client/src/read_loop.rs, crates/mcp-session/src/{pump,output_buffer}.rs,
     crates/mcp-tools/src/{format.rs,handlers/execution.rs,handlers/output.rs}
   digest: Captured output, from the read loop through the buffer to the responses. -/

import LldbDebugMcp.Server.Lldb

set_option autoImplicit false
set_option relaxedAutoImplicit false

namespace LldbDebugMcp.Server.Capture

open LldbDebugMcp.Core.Types
open LldbDebugMcp.Client.Message
open LldbDebugMcp.Client.ReadLoop
open LldbDebugMcp.Library.Transition
open LldbDebugMcp.Session.Output
open LldbDebugMcp.Session.Manager
open LldbDebugMcp.Session.Operation
open LldbDebugMcp.Backend.Adapter
open LldbDebugMcp.Backend.Steps (arrives)
open LldbDebugMcp.Server.Contract
open LldbDebugMcp.Server.Response
open LldbDebugMcp.Server.Handler
open LldbDebugMcp.Server.Lifecycle
open LldbDebugMcp.Server.Execution
open LldbDebugMcp.Server.System
open LldbDebugMcp.Server.Steps
open LldbDebugMcp.Server.Lldb

/-- The entry that an output event becomes. -/
def entryOf (body : OutputBody) : OutputEntry := ⟨body.category, body.output⟩

/-- The chunks of a connection that its event pump has yet to take. -/
def queued (s : ToolServer lldb) (c : Nat) : List OutputEntry :=
  match s.conns c with
  | some k => k.link.output.map entryOf
  | none => []

/-- What has been captured and not been returned. -/
def pending (s : ToolServer lldb) (c : Nat) : List OutputEntry :=
  s.session.output.entries ++ queued s c

/-- The output events that the read loop of a connection processes in a step. -/
def processes (c : Nat) (_ : ToolServer lldb) : System.Action lldb → List OutputEntry
  | .conn c' act => if c' = c then (arrives (.act act)).map entryOf else []
  | _ => []

def takesOutput : SessionOp → Bool
  | .drainOutput | .bookkeeping .drainOutput => true
  | _ => false

/-- The entries that a step drains. -/
def drains (s : ToolServer lldb) (a : System.Action lldb) : List OutputEntry :=
  if (stepOperation s a).any takesOutput then s.session.output.drain.1 else []

/-- The JSON response that a step returns; a drain outside of the handlers is a `read_output`. -/
def responds (s : ToolServer lldb) : System.Action lldb → List (List (String × Value))
  | .task t choice =>
    match (s.tasks t).bind fun pc => pc.next s.toWorld t (s.tokens t) choice with
    | some (.done (.json (.object fields)), _) => [fields]
    | _ => []
  | .bookkeeping .drainOutput => [formatOutputEntries s.session.output.drain.1]
  | _ => []

/-- The text of a bucket in a response. -/
def textOf (name : String) (fields : List (String × Value)) : String :=
  match fields.lookup name with
  | some (.string text) => text
  | _ => ""

/-- The count that a response reports. -/
def countOf (fields : List (String × Value)) : Int :=
  match fields.lookup "count" with
  | some (.int count) => count
  | _ => 0

/-- What the counts of responses add up to. -/
def totalCount : List (List (String × Value)) → Int
  | [] => 0
  | fields :: rest => countOf fields + totalCount rest

def buckets : List String := ["stdout", "stderr", "console"]

def pumpOf : System.Action lldb → Option Nat
  | .pump c _ => some c
  | _ => none

/-- There is no reset, output comes from the connection of the session, and the buffer has room
for it. -/
def Allowed (c : Nat) (s : ToolServer lldb) (a : System.Action lldb) : Option SessionOp → Prop
  | some .resetInner | some .resetOutput => False
  | some (.appendOutput category text) =>
    pumpOf a = some c ∧ s.session.output.size + OutputEntry.size ⟨category, text⟩ ≤ maxSize
  | _ => True

/-- A step within the session of a connection. -/
def WithinSession (c : Nat) (s : ToolServer lldb) (a : System.Action lldb) : Prop :=
  Allowed c s a (stepOperation s a)

instance (c : Nat) (s : ToolServer lldb) (a : System.Action lldb) :
    (op : Option SessionOp) → Decidable (Allowed c s a op)
  | some .resetInner | some .resetOutput => .isFalse id
  | some (.appendOutput ..) => inferInstanceAs (Decidable (_ ∧ _))
  | none | some (.setState _) | some (.setStateIfGeneration ..) | some (.terminateIfGeneration ..)
  | some (.setProgram _) | some (.setPid _) | some (.setLastStopped _)
  | some .flushPendingBreakpoints | some .drainOutput | some (.bookkeeping _) => .isTrue trivial

instance (c : Nat) (s : ToolServer lldb) (a : System.Action lldb) :
    Decidable (WithinSession c s a) :=
  inferInstanceAs (Decidable (Allowed ..))

/-- Where a session begins: its connection is not there yet, and nothing is buffered. -/
structure Opening (c : Nat) (s : ToolServer lldb) : Prop where
  reach : Reach ToolServer.step ToolServer.new s
  unopened : s.conns c = none
  empty : s.session.output.entries = []
  whole : s.session.output.truncated = false

/-! The fields of a response. -/

/-- No output in the response. -/
def Plain (fields : List (String × Value)) : Prop :=
  ∀ name, name ∈ "count" :: buckets → fields.lookup name = none

section

variable {fields base : List (String × Value)} {entries : List OutputEntry} {name : String}

theorem lookup_table (names : List String) (p : String → Bool) (f : String → Value)
    (name : String) : ((names.filter p).map fun n => (n, f n)).lookup name =
      if name ∈ names ∧ p name = true then some (f name) else none := by
  induction names with
  | nil => simp
  | cons n rest ih =>
    by_cases kept : p n = true
    · rw [List.filter_cons_of_pos kept, List.map_cons, lookup_field, ih]
      by_cases same : name = n
      · subst same
        simp [kept]
      · simp [same]
    · rw [List.filter_cons_of_neg kept, ih]
      by_cases same : name = n
      · subst same
        simp [kept]
      · simp [same]

/-- The keys of the output fields are distinct. -/
theorem format_keys (entries : List OutputEntry) :
    ((formatOutputEntries entries).map Prod.fst).Nodup := by
  unfold formatOutputEntries
  split
  · decide
  · rw [List.map_cons, List.map_map]
    have same : (Prod.fst ∘ fun name => (name, Value.string (bucketText entries name))) = id := rfl
    rw [same, List.map_id]
    refine List.nodup_cons.mpr ⟨fun mem => ?_, List.Nodup.filter _ (by decide)⟩
    exact absurd (List.mem_of_mem_filter mem) (show "count" ∉ buckets by decide)

theorem text_format (known : name ∈ buckets) :
    textOf name (formatOutputEntries entries) = bucketText entries name := by
  have other : name ≠ "count" ∧ name ≠ "output" := by
    constructor <;> rintro rfl <;> exact absurd known (by decide)
  unfold textOf formatOutputEntries
  by_cases empty : entries.isEmpty = true
  · rw [if_pos empty, lookup_field, if_neg other.2, lookup_field, if_neg other.1,
      List.isEmpty_iff.mp empty]
    rfl
  · have table := lookup_table buckets (fun name => bucketText entries name ≠ "")
      (fun name => .string (bucketText entries name)) name
    rw [if_neg empty, lookup_field, if_neg other.1, show ["stdout", "stderr", "console"] = buckets
      from rfl, table]
    by_cases silent : bucketText entries name = ""
    · simp [silent]
    · simp [silent, known]

theorem count_format : countOf (formatOutputEntries entries) = entries.length := by
  unfold countOf formatOutputEntries
  by_cases empty : entries.isEmpty = true
  · rw [if_pos empty, List.isEmpty_iff.mp empty]
    rfl
  · rw [if_neg empty, lookup_field, if_pos rfl]

/-- Merging keeps the output fields as they are. -/
theorem lookup_merge (plain : Plain base) (known : name ∈ "count" :: buckets) :
    (mergeOutput base entries).lookup name = (formatOutputEntries entries).lookup name := by
  rw [mergeOutput, lookup_setFields (format_keys entries), plain name known, Option.or_none]

/-- Fields under other keys. -/
theorem plain_of_keys (keys : List String) (same : fields.map Prod.fst = keys)
    (other : ∀ key ∈ keys, key ∉ "count" :: buckets) : Plain fields := by
  subst same
  refine fun name known => List.lookup_eq_none_iff.mpr fun e mem => bne_iff_ne.mpr ?_
  rintro rfl
  exact other e.1 (List.mem_map.mpr ⟨e, mem, rfl⟩) known

theorem plain_stopped (info : StopInfo) : Plain (stoppedResponse info) := by
  unfold stoppedResponse
  split
  · exact plain_of_keys ["status", "reason", "thread_id", "description"] rfl (by decide)
  · exact plain_of_keys
      ["status", "reason", "thread_id", "description", "hit_breakpoint_ids"] rfl
      (by decide)

theorem plain_exited (code : Option Int) : Plain ([("status", .string "exited")] ++
    match code with
    | none => []
    | some code => [("exit_code", .int code)]) := by
  cases code with
  | none => exact plain_of_keys ["status"] rfl (by decide)
  | some code => exact plain_of_keys ["status", "exit_code"] rfl (by decide)

end

/-! The responses of the handlers. -/

section

variable {S : Seam} {w : World S} {t : Nat} {token : Bool} {choice : Choice S}
  {fields : List (String × Value)}

private theorem plain_start {pc : StartPc} {n : Next S StartPc}
    (next : pc.next w t token choice = some n) (json : n.goto = .done (.json (.object fields))) :
    Plain fields := by
  have move := Lifecycle.StartPc.moves_of_next next
  obtain ⟨goto, conn⟩ := n
  obtain rfl : goto = _ := json
  cases move with
  | running =>
    cases choice <;> simp only [StartPc.next, reduceCtorEq] at next
    cases next
    exact plain_of_keys ["status", "program", "pid", "state"] rfl (by decide)
  | exited =>
    cases choice <;> simp only [StartPc.next, reduceCtorEq] at next
    cases next
  | cacheStopped =>
    cases choice <;> simp only [StartPc.next, reduceCtorEq] at next
    cases next
    exact plain_of_keys
      ["status", "program", "pid", "state", "stop_reason", "stopped_thread_id"] rfl
      (by decide)

private theorem plain_disconnect {pc : DisconnectPc} {n : Next S DisconnectPc}
    (next : pc.next w t choice = some n) (json : n.goto = .done (.json (.object fields))) :
    Plain fields := by
  have move := Lifecycle.DisconnectPc.moves_of_next next
  obtain ⟨goto, conn⟩ := n
  obtain rfl : goto = _ := json
  cases move with
  | _ =>
    cases choice <;> simp only [DisconnectPc.next, reduceCtorEq] at next
    cases next
    exact plain_of_keys ["status"] rfl (by decide)

private theorem plain_pause {pc : PausePc} {n : Next S PausePc}
    (next : pc.next w t choice = some n) (json : n.goto = .done (.json (.object fields))) :
    Plain fields := by
  have move := Execution.PausePc.moves_of_next next
  obtain ⟨goto, conn⟩ := n
  obtain rfl : goto = _ := json
  cases move with
  | replied here finished =>
    cases choice <;> simp only [PausePc.next, reduceCtorEq] at next
    obtain ⟨k, k', reply, goto, -, -, hg, eq⟩ := World.takeReply_eq next
    cases eq
    split at hg <;> cases hg
    exact plain_of_keys ["status", "message"] rfl (by decide)

private theorem plain_resume {pc : ResumePc} {n : Next S ResumePc}
    (next : pc.next w t token choice = some n) (json : n.goto = .done (.json (.object fields)))
    (undrained : pc.operation ≠ some .drainOutput) : Plain fields := by
  have move := Execution.ResumePc.moves_of_next next
  obtain ⟨goto, conn⟩ := n
  obtain rfl : goto = _ := json
  cases move with
  | drainStopped | drainExited => exact absurd rfl undrained
  | applyTerminated =>
    cases choice <;> simp only [ResumePc.next, reduceCtorEq] at next
    cases next
    exact plain_of_keys ["status", "message"] rfl (by decide)

end

section

variable {s s' : ToolServer lldb} {a : System.Action lldb} {name : String}

/-- A step that drains answers with what it drained. -/
private theorem responds_drain (taken : s.step a = some s')
    (draining : (stepOperation s a).any takesOutput = true) :
    responds s a = [formatOutputEntries s.session.output.drain.1] ∨
      ∃ base, Plain base ∧ responds s a = [mergeOutput base s.session.output.drain.1] := by
  obtain ⟨op, writes, takes⟩ := (Option.any_eq_true _ _).mp draining
  rcases stepOperation_cases writes with ⟨t, choice, rfl, eq⟩ | ⟨c, which, g, event, -, rfl⟩ |
    ⟨b, rfl, rfl⟩
  · have drain : taskOperation s t = some .drainOutput := by
      cases op with
      | drainOutput => exact eq
      | bookkeeping b =>
        obtain ⟨pc, -, operation⟩ := Option.bind_eq_some_iff.mp eq
        exact absurd operation operation_ne_bookkeeping
      | _ => cases takes
    refine .inr ?_
    rcases drain_cases drain with ⟨g, info, here⟩ | ⟨g, code, here⟩ <;>
      obtain ⟨pc', conn, next, -⟩ := task_next taken here <;>
      simp only [responds, here, Option.bind_some, next] <;> cases choice <;>
      simp only [Pc.next, ResumePc.next, Option.map_none, reduceCtorEq] at next <;> cases next
    · exact ⟨_, plain_stopped info, rfl⟩
    · exact ⟨_, plain_exited code, rfl⟩
  · cases event <;> cases takes
  · cases b with
    | drainOutput => exact .inl rfl
    | _ => cases takes

private theorem done_of_goto {π : Type} {inj : π → Pc} {goto : Goto π} {outcome : ToolOutcome}
    (going : ∀ pc, inj pc ≠ .done outcome) (eq : Pc.ofGoto inj goto = .done outcome) :
    goto = .done outcome := by
  cases goto with
  | «at» pc => exact absurd eq (going pc)
  | done outcome' => exact congrArg Goto.done (Pc.done.inj eq)

/-- A task that returns without a drain returns no output. -/
private theorem plain_task {t : Nat} {choice : Choice lldb} {pc : Pc}
    {conn : Option (Nat × Connection)} {fields : List (String × Value)}
    (next : pc.next s.toWorld t (s.tokens t) choice =
      some (.done (.json (.object fields)), conn))
    (undrained : pc.operation ≠ some .drainOutput) : Plain fields := by
  cases pc with
  | start pc =>
    obtain ⟨n, moved, eq⟩ := Option.map_eq_some_iff.mp next
    exact plain_start moved (done_of_goto (fun _ h => by cases h) (Prod.mk.inj eq).1)
  | disconnect pc =>
    obtain ⟨n, moved, eq⟩ := Option.map_eq_some_iff.mp next
    exact plain_disconnect moved (done_of_goto (fun _ h => by cases h) (Prod.mk.inj eq).1)
  | resume pc =>
    obtain ⟨n, moved, eq⟩ := Option.map_eq_some_iff.mp next
    exact plain_resume moved (done_of_goto (fun _ h => by cases h) (Prod.mk.inj eq).1) undrained
  | pause pc =>
    obtain ⟨n, moved, eq⟩ := Option.map_eq_some_iff.mp next
    exact plain_pause moved (done_of_goto (fun _ h => by cases h) (Prod.mk.inj eq).1)
  | done => cases next

/-- A step that does not drain answers without output, if at all. -/
private theorem responds_plain (undrained : (stepOperation s a).any takesOutput = false) :
    responds s a = [] ∨ ∃ fields, Plain fields ∧ responds s a = [fields] := by
  cases a with
  | task t choice =>
    simp only [responds]
    split
    · rename_i fields conn next
      obtain ⟨pc, here, next⟩ := Option.bind_eq_some_iff.mp next
      refine .inr ⟨fields, plain_task next fun drain => ?_, rfl⟩
      rw [stepOperation, taskOperation_of here, drain] at undrained
      cases undrained
    · exact .inl rfl
  | bookkeeping b =>
    cases b with
    | drainOutput => cases undrained
    | _ => exact .inl rfl
  | _ => exact .inl rfl

/-- The texts of a response are those of the entries that its step drains. -/
theorem responds_text (taken : s.step a = some s') (known : name ∈ buckets) :
    String.join ((responds s a).map (textOf name)) = bucketText (drains s a) name := by
  have one fields : String.join ([fields].map (textOf name)) = textOf name fields := by
    rw [List.map_singleton, String.join_cons, String.join_nil, String.append_empty]
  unfold drains
  cases draining : (stepOperation s a).any takesOutput with
  | true =>
    rw [if_pos rfl]
    rcases responds_drain taken draining with eq | ⟨base, plain, eq⟩
    · rw [eq, one, text_format known]
    · rw [eq, one, textOf, lookup_merge plain (List.mem_cons_of_mem _ known)]
      exact text_format known
  | false =>
    rw [if_neg (by decide), bucketText_nil]
    rcases responds_plain draining with eq | ⟨fields, plain, eq⟩
    · rw [eq]
      rfl
    · rw [eq, one, textOf, plain name (List.mem_cons_of_mem _ known)]

theorem responds_count (taken : s.step a = some s') :
    totalCount (responds s a) = (drains s a).length := by
  have one fields : totalCount [fields] = countOf fields := Int.add_zero _
  unfold drains
  cases draining : (stepOperation s a).any takesOutput with
  | true =>
    rw [if_pos rfl]
    rcases responds_drain taken draining with eq | ⟨base, plain, eq⟩
    · rw [eq, one, count_format]
    · rw [eq, one, countOf, lookup_merge plain (List.mem_cons_self ..)]
      exact count_format
  | false =>
    rw [if_neg (by decide)]
    rcases responds_plain draining with eq | ⟨fields, plain, eq⟩
    · rw [eq]
      rfl
    · rw [eq, one, countOf, plain "count" (List.mem_cons_self ..)]
      rfl

end

/-! The chunks that a connection has queued. -/

section

variable {s s' : ToolServer lldb} {a : System.Action lldb} {b c : Nat} {k k' : Connection}

theorem queued_of (here : s.conns c = some k) : queued s c = k.link.output.map entryOf := by
  simp only [queued, here]

private theorem queued_none (absent : s.conns c = none) : queued s c = [] := by
  simp only [queued, absent]

private theorem queued_same (same : s'.conns c = s.conns c) : queued s' c = queued s c := by
  simp only [queued, same]

/-- One connection is replaced. -/
private theorem queued_stored {new : List OutputBody}
    (stored : s'.conns = Function.update s.conns b (some k')) (here : s.conns b = some k)
    (more : k'.link.output = k.link.output ++ new) :
    queued s' c = queued s c ++ if b = c then new.map entryOf else [] := by
  by_cases same : c = b
  · subst same
    have there : s'.conns c = some k' := by rw [stored, Function.update_self]
    rw [if_pos rfl, queued_of there, queued_of here, more, List.map_append]
  · have other : s'.conns c = s.conns c := by rw [stored, Function.update_of_ne same]
    rw [if_neg (Ne.symm same), List.append_nil, queued_same other]

private theorem queued_quiet (stored : s'.conns = Function.update s.conns b (some k'))
    (here : s.conns b = some k) (same : k'.link.output = k.link.output) :
    queued s' c = queued s c := by
  have none : k'.link.output = k.link.output ++ [] := by rw [same, List.append_nil]
  rw [queued_stored stored here none, List.map_nil, ite_self, List.append_nil]

/-- Only the read loop adds to the queue, at its end, unless the pump takes the first chunk. -/
theorem queue_step (reach : Reach ToolServer.step ToolServer.new s) (taken : s.step a = some s')
    (unread : a ≠ .pump c .output) : queued s' c = queued s c ++ processes c s a := by
  have still : processes c s a = [] → queued s' c = queued s c →
      queued s' c = queued s c ++ processes c s a := by
    intro none same
    rw [none, List.append_nil, same]
  cases moves_of_step taken with
  | call | cancelToken | bookkeeping => exact still rfl rfl
  | @conn b act k k' here acted =>
    have moves := Backend.Steps.moves_of_step (a := .act act) acted
    exact queued_stored rfl here (moves.output nofun)
  | @pump b which g k k' event bound here pulled =>
    refine still rfl ?_
    have moves := Backend.Steps.moves_of_step (a := .pull which)
      (congrArg (Option.map Prod.snd) pulled)
    by_cases same : b = c
    · subst same
      have other : Backend.Adapter.Action.pull which ≠ .pull .output := by
        rintro ⟨⟩
        exact unread rfl
      exact queued_quiet rfl here ((moves.output other).trans (List.append_nil _))
    · exact queued_same (Function.update_of_ne (Ne.symm same) _ _)
  | @task t choice pc pc' conn here move =>
    refine still rfl ?_
    rcases move.call_cases with ⟨rfl, -⟩ | ⟨plan, conf, rfl, rfl, rfl⟩ |
      ⟨b, k, k', call, old, started, rfl, -⟩ | ⟨b, k, k', old, rfl, -, -, ended⟩
    · rfl
    · by_cases same : c = t
      · subst same
        have absent : s.conns c = none := by
          rw [Option.eq_none_iff_forall_not_mem]
          intro k old
          obtain ⟨pc, at_, past⟩ := opened_of_conn reach old
          obtain rfl := Option.some.inj (here.symm.trans at_)
          cases past
        rw [queued_none absent, queued_of (Function.update_self _ _ _)]
        rfl
      · exact queued_same (Function.update_of_ne same _ _)
    · obtain ⟨-, rfl⟩ := Backend.Steps.start_eq started
      exact queued_quiet rfl old rfl
    · rcases ended with dropped | ⟨reply, finished⟩
      · have moves := Backend.Steps.moves_of_step (a := .cancel t) dropped
        exact queued_quiet rfl old ((moves.output nofun).trans (List.append_nil _))
      · obtain ⟨f, -, -, rfl⟩ := Backend.Steps.finish_eq finished
        exact queued_quiet rfl old rfl

/-- The pump appends the chunk that it takes. -/
theorem queue_pump (taken : s.step (.pump c .output) = some s') :
    ∃ e, stepOperation s (.pump c .output) = some (.appendOutput e.category e.text) ∧
      queued s c = e :: queued s' c := by
  cases moves_of_step taken with
  | @pump _ _ g k k' event bound here pulled =>
    obtain ⟨⟨event', link⟩, popped, eq⟩ := Option.map_eq_some_iff.mp pulled
    cases eq
    change k.link.pullOutput = _ at popped
    unfold Link.pullOutput at popped
    split at popped
    · cases popped
    · rename_i body rest waiting
      cases popped
      refine ⟨entryOf body, ?_, ?_⟩
      · simp only [stepOperation, bound, here, Option.bind_some]
        exact congrArg (Option.map fun p => pumpOperation g p.1) pulled
      · rw [queued_of here, waiting, queued_of (Function.update_self _ _ _)]
        rfl

/-- An event pump appends only what it takes from the output queue. -/
theorem append_of_pump {which : Pull} {category text : String}
    (appends : stepOperation s (.pump c which) = some (.appendOutput category text)) :
    which = .output := by
  obtain ⟨g, -, rest⟩ := Option.bind_eq_some_iff.mp appends
  obtain ⟨k, -, rest⟩ := Option.bind_eq_some_iff.mp rest
  obtain ⟨⟨event, k'⟩, pulled, eq⟩ := Option.map_eq_some_iff.mp rest
  cases which with
  | output => rfl
  | terminated =>
    obtain ⟨⟨event', link⟩, popped, same⟩ := Option.map_eq_some_iff.mp pulled
    cases same
    change k.link.pullTerminated = _ at popped
    unfold Link.pullTerminated at popped
    split at popped <;> cases popped
    cases eq

/-! What a step keeps. -/

private theorem unread (taken : s.step a = some s')
    (silent : ∀ category text, stepOperation s a ≠ some (.appendOutput category text)) :
    a ≠ .pump c .output := by
  rintro rfl
  obtain ⟨e, appends, -⟩ := queue_pump taken
  exact silent _ _ appends

/-- Every chunk stays where it was or moves on, and the read loop adds its own at the end. -/
theorem step_conserves (reach : Reach ToolServer.step ToolServer.new s) (taken : s.step a = some s')
    (within : WithinSession c s a) (whole : s.session.output.truncated = false) :
    drains s a ++ pending s' c = pending s c ++ processes c s a ∧
      s'.session.output.truncated = false := by
  have session := step_session taken
  have aside (undrained : (stepOperation s a).any takesOutput = false)
      (silent : ∀ category text, stepOperation s a ≠ some (.appendOutput category text))
      (same : s'.session.output = s.session.output) :
      drains s a ++ pending s' c = pending s c ++ processes c s a ∧
        s'.session.output.truncated = false := by
    rw [drains, undrained, if_neg Bool.false_ne_true, List.nil_append, pending, pending, same,
      queue_step reach taken (unread taken silent), List.append_assoc]
    exact ⟨rfl, whole⟩
  have drained (draining : (stepOperation s a).any takesOutput = true)
      (silent : ∀ category text, stepOperation s a ≠ some (.appendOutput category text))
      (cleared : s'.session.output = s.session.output.drain.2) :
      drains s a ++ pending s' c = pending s c ++ processes c s a ∧
        s'.session.output.truncated = false := by
    rw [drains, draining, if_pos rfl, OutputBuffer.drain_fst, whole, if_neg Bool.false_ne_true,
      List.nil_append, pending, pending, cleared, OutputBuffer.drain_entries, List.nil_append,
      queue_step reach taken (unread taken silent), List.append_assoc]
    exact ⟨rfl, OutputBuffer.drain_truncated _⟩
  cases writes : stepOperation s a with
  | none =>
    rw [writes] at session aside
    exact aside rfl nofun (congrArg _ session)
  | some op =>
    rw [writes] at session aside drained
    have others (outside : op.touchesOutput = false) (undrained : takesOutput op = false) :
        drains s a ++ pending s' c = pending s c ++ processes c s a ∧
          s'.session.output.truncated = false := by
      refine aside undrained ?_ ((congrArg _ session).trans (apply_output outside))
      rintro category text ⟨⟩
      cases outside
    cases op with
    | appendOutput category text =>
      rw [WithinSession, writes] at within
      obtain ⟨own, fits⟩ := within
      cases a with
      | pump b which =>
        obtain rfl := Option.some.inj own
        obtain rfl := append_of_pump writes
        obtain ⟨e, appends, first⟩ := queue_pump taken
        have same := Option.some.inj (writes.symm.trans appends)
        obtain ⟨rfl, rfl⟩ := SessionOp.appendOutput.inj same
        have grown : s'.session.output = s.session.output.append e.category e.text :=
          congrArg _ session
        rw [OutputBuffer.append_of_fits fits] at grown
        rw [drains, writes, pending, pending, grown, first]
        exact ⟨by simp [takesOutput, processes], whole⟩
      | _ => cases own
    | drainOutput => exact drained rfl nofun (congrArg _ session)
    | resetOutput | resetInner =>
      rw [WithinSession, writes] at within
      exact within.elim
    | bookkeeping b =>
      cases b with
      | drainOutput => exact drained rfl nofun (congrArg _ session)
      | _ => exact others rfl rfl
    | _ => exact others rfl rfl

end

/-! A whole session. -/

/-- The responses of a run, in order. -/
def responses : ToolServer lldb → List (System.Action lldb) → List (List (String × Value)) :=
  emits ToolServer.step responds

/-- The output events of a run, in the order in which the read loop processes them. -/
def processed (c : Nat) : ToolServer lldb → List (System.Action lldb) → List OutputEntry :=
  emits ToolServer.step (processes c)

/-- The entries that a run drains, in order. -/
def drained : ToolServer lldb → List (System.Action lldb) → List OutputEntry :=
  emits ToolServer.step drains

/-- The texts of a bucket, joined. -/
def written (name : String) (entries : List OutputEntry) : String :=
  String.join ((entries.filter fun e => bucket e.category = name).map OutputEntry.text)

section

variable {s₀ s : ToolServer lldb} {as : List (System.Action lldb)} {c : Nat}

theorem bucketText_eq (entries : List OutputEntry) (name : String) :
    bucketText entries name = written name entries := by
  unfold written
  induction entries with
  | nil => rfl
  | cons e rest ih =>
    have first : bucketText [e] name = if bucket e.category = name then e.text else "" := by
      simp [bucketText]
    rw [show e :: rest = [e] ++ rest from rfl, bucketText_append, first, ih]
    by_cases mine : bucket e.category = name
    · rw [if_pos mine, List.singleton_append, List.filter_cons_of_pos (by simpa using mine),
        List.map_cons, String.join_cons]
    · rw [if_neg mine, List.singleton_append, List.filter_cons_of_neg (by simpa using mine),
        String.empty_append]

theorem totalCount_append (first rest : List (List (String × Value))) :
    totalCount (first ++ rest) = totalCount first + totalCount rest := by
  induction first with
  | nil => exact (Int.zero_add _).symm
  | cons fields more ih => rw [List.cons_append, totalCount, totalCount, ih, Int.add_assoc]

/-- What the responses of a run return is what it drains. -/
private structure Told (responses : List (List (String × Value))) (drained : List OutputEntry) :
    Prop where
  texts : ∀ name ∈ buckets, String.join (responses.map (textOf name)) = written name drained
  counts : totalCount responses = drained.length

private theorem told_run {P : ToolServer lldb → System.Action lldb → Prop}
    (run : Run ToolServer.step P s₀ as s) : Told (responses s₀ as) (drained s₀ as) := by
  refine run.keeps_history (I := fun as _ => Told (responses s₀ as) (drained s₀ as)) ?_
    ⟨fun _ _ => rfl, rfl⟩
  intro before s a s' first told _ taken
  have more : responses s₀ (before ++ [a]) = responses s₀ before ++ responds s a :=
    first.emits_concat a
  have out : drained s₀ (before ++ [a]) = drained s₀ before ++ drains s a := first.emits_concat a
  rw [more, out]
  constructor
  · intro name known
    rw [List.map_append, String.join_append, told.texts name known, responds_text taken known]
    simp only [← bucketText_eq, bucketText_append]
  · rw [totalCount_append, told.counts, responds_count taken, List.length_append, Int.natCast_add]

/-- In every run within one session, whatever the interleaving, the texts of each bucket in the
responses, followed by what is buffered or queued, are the texts of its output events in the
order in which the read loop processed them, and the counts add up to what was drained. -/
theorem output_captured (opening : Opening c s₀)
    (run : Run ToolServer.step (WithinSession c) s₀ as s) :
    drained s₀ as ++ pending s c = processed c s₀ as ∧
    (∀ name ∈ buckets,
      String.join ((responses s₀ as).map (textOf name)) ++ written name (pending s c) =
        written name (processed c s₀ as)) ∧
    totalCount (responses s₀ as) = (drained s₀ as).length := by
  have conserved : drained s₀ as ++ pending s c = processed c s₀ as ∧
      s.session.output.truncated = false := by
    refine run.keeps_history (I := fun as s => drained s₀ as ++ pending s c = processed c s₀ as ∧
      s.session.output.truncated = false) ?_ ?_
    · rintro before s a s' first ⟨ih, whole⟩ within taken
      have step := step_conserves (opening.reach.run first) taken within whole
      refine ⟨?_, step.2⟩
      have out : drained s₀ (before ++ [a]) = drained s₀ before ++ drains s a :=
        first.emits_concat a
      have heard : processed c s₀ (before ++ [a]) = processed c s₀ before ++ processes c s a :=
        first.emits_concat a
      calc drained s₀ (before ++ [a]) ++ pending s' c
          = drained s₀ before ++ (drains s a ++ pending s' c) := by rw [out, List.append_assoc]
        _ = drained s₀ before ++ pending s c ++ processes c s a := by
          rw [step.1, List.append_assoc]
        _ = processed c s₀ (before ++ [a]) := by rw [ih, heard]
    · refine ⟨?_, opening.whole⟩
      rw [pending, opening.empty, queued_none opening.unopened]
      rfl
  have told := told_run run
  refine ⟨conserved.1, fun name known => ?_, told.counts⟩
  rw [told.texts name known, ← conserved.1]
  simp only [← bucketText_eq, bucketText_append]

end

/-- Output at a continue, which returns some of it with its stop; the rest is read, or queued. -/
def chatter : List (System.Action lldb) :=
  let prints (category text : String) := receive 0 (.event (.output ⟨category, text⟩))
  launchCall 0 true ++ handshake 0 true ++ launchStopped 0 ++
    [.call 1 (.resume ⟨.cont, .ok none, none⟩)] ++ proceed 1 5 ++ [poll 0 1] ++ write 0 1 ++
    [receive 0 (answer 5), poll 0 1, prints "stdout" "a", prints "stderr" "b", .pump 0 .output,
      receive 0 (stoppedEvent "pause"), poll 0 1, .task 1 .reply] ++ proceed 1 3 ++
    [prints "stdout" "c", .pump 0 .output, .pump 0 .output, .bookkeeping .drainOutput,
      prints "important" "d"]

theorem output_captured_chatter :
    ∃ s, Run ToolServer.step (WithinSession 0) ToolServer.new chatter s ∧
    (responses ToolServer.new chatter).map (textOf "stdout") = ["", "a", "c"] ∧
    drained ToolServer.new chatter ++ pending s 0 = processed 0 ToolServer.new chatter := by
  have eval : (exec ToolServer.step (WithinSession 0) (ToolServer.new : ToolServer lldb)
      chatter).isSome =
      true := by
    decide +kernel
  obtain ⟨s, last⟩ := Option.isSome_iff_exists.mp eval
  have opening : Opening 0 (ToolServer.new : ToolServer lldb) := ⟨.start _, rfl, rfl, rfl⟩
  exact ⟨s, run_of_exec last, by decide +kernel, (output_captured opening (run_of_exec last)).1⟩

end LldbDebugMcp.Server.Capture
