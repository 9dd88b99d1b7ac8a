import TorrentServer.BatchReading
import TorrentServer.Shutdown

namespace TorrentServer.MysqlPipeline

open TorrentServer.Records (cStr)
open TorrentServer.ChainLibrary
open TorrentServer.MysqlTables
open TorrentServer.ConnectionPool (getMysqlConn)
open TorrentServer.SqlExecutor (Executor Execution Queue)
open TorrentServer.TaskTexts (Append Texts taskTexts torrents payments)
open TorrentServer.ReplaceReading (WritesNumerals sampleClock sampleFormatF scaled_writesNumerals
  paymentOfUser paymentOfUser_readable)
open TorrentServer.RowReading
open TorrentServer.BatchReading
open TorrentServer.Shutdown (tuplesOf tuplesOf_cons tuplesOf_append tuplesOf_statements concat_assoc
  concat_empty)
open TorrentServer.Library.Runs
open TorrentServer.Library.SqlLiterals
open TorrentServer.Library.SqlReplace

section Machine

structure Pipeline (server : Server) where
  task : Texts := ∅
  executor : Executor := {}
  state : server.State

/-- The mutex makes each append and each flush one step; the executor has a step for every
call of `get_mysql_conn` and of `mysql_real_query`. -/
inductive Event
  | append (call : Append)
  | flush
  | enter (dequeued connected : Bool)
  | query (executed : Bool)
  | next
  | leave

variable {server : Server}

def Pipeline.flush (p : Pipeline server) : Pipeline server :=
  { p with
    task := ∅
    executor := (batchTasks p.task).foldl Executor.put p.executor }

/-- `mysql_real_query` for the task at hand. A query can always fail; that it is executed
is up to the server. Error 1062 is for rows that are not to be replaced. -/
def Pipeline.query (p : Pipeline server) (executed : Bool) : Option (Pipeline server) :=
  match p.executor.running.bind Execution.task with
  | none => none
  | some task =>
      if executed then
        (server.query p.state (Queue.batch.statement task).toList).bind fun state =>
          (p.executor.query .batch .accepted).map fun executor =>
            { p with executor := executor, state := state }
      else
        (p.executor.query .batch .failed).map fun executor => { p with executor := executor }

variable (formatF : UInt64 → Numeral) (env : Environment)

def Pipeline.step (p : Pipeline server) : Event → Option (Pipeline server)
  | .append call => some { p with task := call.apply formatF env p.task }
  | .flush => some p.flush
  | .enter dequeued connected =>
      (p.executor.enter dequeued connected).map fun executor => { p with executor := executor }
  | .query executed => p.query executed
  | .next => p.executor.next.map fun executor => { p with executor := executor }
  | .leave => p.executor.leave.map fun executor => { p with executor := executor }

def Pipeline.Steps (p : Pipeline server) (event : Event) (p' : Pipeline server) : Prop :=
  p.step formatF env event = some p'

inductive Transition (p : Pipeline server) : Event → Pipeline server → Prop
  | appended (call : Append) :
      Transition p (.append call) { p with task := call.apply formatF env p.task }
  | flushed : Transition p .flush p.flush
  | entered {dequeued connected : Bool} {executor : Executor}
      (hexecutor : p.executor.enter dequeued connected = some executor) :
      Transition p (.enter dequeued connected) { p with executor := executor }
  | executed {task : SqlExecutor.MysqlTask} {executor : Executor} {state : server.State}
      (htask : p.executor.running.bind Execution.task = some task)
      (hquery : server.query p.state (Queue.batch.statement task).toList = some state)
      (hexecutor : p.executor.query .batch .accepted = some executor) :
      Transition p (.query true) { p with executor := executor, state := state }
  | failed {executor : Executor} (hexecutor : p.executor.query .batch .failed = some executor) :
      Transition p (.query false) { p with executor := executor }
  | advanced {executor : Executor} (hexecutor : p.executor.next = some executor) :
      Transition p .next { p with executor := executor }
  | left {executor : Executor} (hexecutor : p.executor.leave = some executor) :
      Transition p .leave { p with executor := executor }

theorem transition_of_steps {formatF : UInt64 → Numeral} {env : Environment}
    {p p' : Pipeline server} {event : Event} (h : p.Steps formatF env event p') :
    Transition formatF env p event p' := by
  cases event with
  | append call =>
      cases h
      exact .appended call
  | flush =>
      cases h
      exact .flushed
  | enter dequeued connected =>
      obtain ⟨executor, hexecutor, rfl⟩ := Option.map_eq_some_iff.mp h
      exact .entered hexecutor
  | query executed =>
      change p.query executed = some p' at h
      unfold Pipeline.query at h
      split at h
      · cases h
      · rename_i task htask
        cases executed with
        | true =>
            obtain ⟨state, hquery, h⟩ := Option.bind_eq_some_iff.mp h
            obtain ⟨executor, hexecutor, rfl⟩ := Option.map_eq_some_iff.mp h
            exact .executed htask hquery hexecutor
        | false =>
            obtain ⟨executor, hexecutor, rfl⟩ := Option.map_eq_some_iff.mp h
            exact .failed hexecutor
  | next =>
      obtain ⟨executor, hexecutor, rfl⟩ := Option.map_eq_some_iff.mp h
      exact .advanced hexecutor
  | leave =>
      obtain ⟨executor, hexecutor, rfl⟩ := Option.map_eq_some_iff.mp h
      exact .left hexecutor

def appendsOf (events : List Event) : List Append :=
  events.filterMap fun
    | .append call => some call
    | _ => none

def Connected : Event → Prop
  | .enter dequeued connected => (getMysqlConn dequeued connected).isSome = true
  | _ => True

def Pipeline.Idle (p : Pipeline server) : Prop :=
  p.task = ∅ ∧ p.executor.waiting = []

end Machine

section Executor

variable {e e' : Executor}

/-- The executor has the same tasks before it and behind it, and its queue still takes more. -/
structure SameTasks (e e' : Executor) : Prop where
  waiting : e'.waiting = e.waiting
  stopped : e'.queue.stopped = e.queue.stopped
  answered : e'.answered = e.answered

theorem waiting_put (hrunning : e.queue.stopped = false) (task : SqlExecutor.MysqlTask) :
    (e.put task).waiting = e.waiting ++ [task] := by
  simp [Executor.put, Executor.waiting,
    Library.TaskQueues.ExecutionQueue.pending_execute hrunning]

theorem stopped_put (e : Executor) (task : SqlExecutor.MysqlTask) :
    (e.put task).queue.stopped = e.queue.stopped := by
  simp [Executor.put]

theorem waiting_putAll (hrunning : e.queue.stopped = false)
    (tasks : List SqlExecutor.MysqlTask) :
    (tasks.foldl Executor.put e).waiting = e.waiting ++ tasks ∧
      (tasks.foldl Executor.put e).queue.stopped = false := by
  induction tasks generalizing e with
  | nil => exact ⟨by simp, hrunning⟩
  | cons task tasks ih =>
      obtain ⟨hwaiting, hstopped⟩ := @ih (e.put task) (by rwa [stopped_put])
      refine ⟨?_, hstopped⟩
      rw [List.foldl_cons, hwaiting, waiting_put hrunning]
      simp

theorem sameTasks_enter {dequeued connected : Bool}
    (hconn : (getMysqlConn dequeued connected).isSome = true)
    (h : e.enter dequeued connected = some e') : SameTasks e e' := by
  obtain ⟨flag, hflag⟩ := Option.isSome_iff_exists.mp hconn
  unfold Executor.enter at h
  split at h
  · rename_i task pending hrunning hpending
    simp only [hflag, Option.some.injEq] at h
    subst h
    exact ⟨by simp [Executor.waiting, hrunning, hpending], rfl, rfl⟩
  · cases h

theorem sameTasks_next (h : e.next = some e') : SameTasks e e' := by
  unfold Executor.next at h
  split at h
  · rename_i flag task pending hrunning hpending
    cases h
    exact ⟨by simp [Executor.waiting, hrunning, hpending], rfl, rfl⟩
  · cases h

theorem sameTasks_leave (h : e.leave = some e') : SameTasks e e' := by
  unfold Executor.leave at h
  split at h
  · rename_i hrunning
    cases h
    exact ⟨by simp [Executor.waiting, hrunning], rfl, rfl⟩
  · cases h

theorem sameTasks_failed (h : e.query .batch .failed = some e') : SameTasks e e' := by
  unfold Executor.query at h
  split at h
  · cases h
    exact ⟨rfl, rfl, rfl⟩
  · cases h

/-- A statement that is executed was the first of those waiting. -/
theorem waiting_accepted {task : SqlExecutor.MysqlTask}
    (htask : e.running.bind Execution.task = some task)
    (h : e.query .batch .accepted = some e') :
    e.waiting = task :: e'.waiting ∧ e'.queue.stopped = e.queue.stopped ∧
      e'.answered = e.answered ++ [Queue.batch.statement task] := by
  unfold Executor.query at h
  split at h
  · rename_i flag other hrunning
    rw [hrunning] at htask
    cases h
    cases htask
    exact ⟨by simp [Executor.waiting, hrunning], rfl, rfl⟩
  · cases h

end Executor

section Refinement

variable {formatF : UInt64 → Numeral} {env : Environment} {server : Server} {tables : Tables}
  {calls : List Append} {p p' : Pipeline server} {shown : MysqlTask} {queued : List Batch}
  {pending : List Append} {good : Append → Prop}

/-- The rows of all calls so far are those the server holds, those of the statements on
their way and those of the calls since the last flush, in this order. -/
structure Refined (good : Append → Prop) (formatF : UInt64 → Numeral) (env : Environment)
    (tables : Tables) (calls : List Append) (p : Pipeline server) (shown : MysqlTask)
    (queued : List Batch) (pending : List Append) : Prop where
  running : p.executor.queue.stopped = false
  task : p.task = taskTexts formatF env pending
  queue : p.executor.waiting = queued.map (Batch.task formatF env)
  values : ∀ b ∈ queued, (b.value formatF env).isSome = true
  goodQueued : ∀ b ∈ queued, ∀ call ∈ b.calls, good call
  goodPending : ∀ call ∈ pending, good call
  rows : Represents (server.contents p.state) (tables.applyTask shown)
  order : shown.concat ((tuplesOf (queued.map (Batch.statement env))).concat
    (rowTask env pending)) = rowTask env calls

theorem Refined.appended (h : Refined good formatF env tables calls p shown queued pending)
    {call : Append} (hcall : good call) :
    Refined good formatF env tables (calls ++ [call])
      { p with task := call.apply formatF env p.task } shown queued (pending ++ [call]) where
  running := h.running
  task := by
    rw [taskTexts, List.foldl_append, ← taskTexts, ← h.task]
    rfl
  queue := h.queue
  values := h.values
  goodQueued := h.goodQueued
  goodPending := by
    intro other hother
    rcases List.mem_append.mp hother with hother | hother
    · exact h.goodPending other hother
    · rw [List.mem_singleton.mp hother]
      exact hcall
  rows := h.rows
  order := by rw [rowTask_append, rowTask_append, ← h.order, concat_assoc, concat_assoc]

theorem Refined.flushed (h : Refined good formatF env tables calls p shown queued pending) :
    Refined good formatF env tables calls p.flush shown
      (queued ++ batchesOf formatF env pending) [] := by
  have hput := waiting_putAll h.running (batchTasks p.task)
  rw [h.task, batchTasks_taskTexts] at hput
  have hmem : ∀ b ∈ batchesOf formatF env pending,
      (b.value formatF env).isSome = true ∧ b.calls = pending := by
    intro b hb
    obtain ⟨hpair, hvalue⟩ := List.mem_filter.mp hb
    refine ⟨hvalue, ?_⟩
    simp only [List.mem_cons, List.not_mem_nil, or_false] at hpair
    rcases hpair with rfl | rfl <;> rfl
  constructor
  case running =>
      rw [Pipeline.flush, h.task, batchTasks_taskTexts]
      exact hput.2
  case task => rfl
  case queue =>
      rw [Pipeline.flush, h.task, batchTasks_taskTexts, List.map_append, ← h.queue]
      exact hput.1
  case values =>
      intro b hb
      exact (List.mem_append.mp hb).elim (h.values b) fun hb => (hmem b hb).1
  case goodQueued =>
      intro b hb
      refine (List.mem_append.mp hb).elim (h.goodQueued b) fun hb => ?_
      rw [(hmem b hb).2]
      exact h.goodPending
  case goodPending => simp
  case rows => exact h.rows
  case order =>
      rw [← h.order, List.map_append, statements_batchesOf, tuplesOf_append, tuplesOf_statements]
      exact congrArg _ (concat_empty _)

theorem Refined.moved (h : Refined good formatF env tables calls p shown queued pending)
    {executor : Executor} (hsame : SameTasks p.executor executor) :
    Refined good formatF env tables calls { p with executor := executor } shown queued pending where
  running := hsame.stopped.trans h.running
  task := h.task
  queue := hsame.waiting.trans h.queue
  values := h.values
  goodQueued := h.goodQueued
  goodPending := h.goodPending
  rows := h.rows
  order := h.order

theorem applyTask_tuples (tables : Tables) (statement : Statement) :
    tables.applyTask statement.tuples = tables.execute statement := by
  cases statement <;> rfl

theorem Refined.executed (hserver : server.Executes primaryKey HashText)
    (hnumerals : WritesNumerals env.decimals) (hgood : ∀ call, good call → CleanCall call)
    (h : Refined good formatF env tables calls p shown queued pending)
    {task : SqlExecutor.MysqlTask} {executor : Executor} {state : server.State}
    (htask : p.executor.running.bind Execution.task = some task)
    (hquery : server.query p.state (Queue.batch.statement task).toList = some state)
    (hexecutor : p.executor.query .batch .accepted = some executor) :
    ∃ b rest, queued = b :: rest ∧
      Refined good formatF env tables calls { p with executor := executor, state := state }
        (shown.concat (b.statement env).tuples) rest pending := by
  obtain ⟨hwaiting, hstopped, -⟩ := waiting_accepted htask hexecutor
  have hqueue := h.queue
  rw [hwaiting] at hqueue
  obtain ⟨b, rest, rfl, rfl, hrest⟩ := List.map_eq_cons_iff.mp hqueue.symm
  have hvalue := h.values b List.mem_cons_self
  have hclean : ∀ call ∈ b.calls, CleanCall call := fun call hcall =>
    hgood call (h.goodQueued b List.mem_cons_self call hcall)
  refine ⟨b, rest, rfl, ?_⟩
  constructor
  case running => exact hstopped.trans h.running
  case task => exact h.task
  case queue => exact hrest.symm
  case values => exact fun other hother => h.values other (List.mem_cons_of_mem _ hother)
  case goodQueued => exact fun other hother => h.goodQueued other (List.mem_cons_of_mem _ hother)
  case goodPending => exact h.goodPending
  case rows =>
      rw [hserver _ _ _ _ (lex_batch hnumerals hclean hvalue) (keyed_batch hclean hvalue) hquery,
        Tables.applyTask_concat, applyTask_tuples]
      exact h.rows.execute b
  case order =>
      rw [← h.order, List.map_cons, tuplesOf_cons, concat_assoc, concat_assoc]

theorem appendsOf_append (events more : List Event) :
    appendsOf (events ++ more) = appendsOf events ++ appendsOf more :=
  List.filterMap_append

theorem refined_step (hserver : server.Executes primaryKey HashText)
    (hnumerals : WritesNumerals env.decimals) (hgood : ∀ call, good call → CleanCall call)
    {event : Event} (hcalls : ∀ call ∈ appendsOf [event], good call) (hconn : Connected event)
    (h : Refined good formatF env tables calls p shown queued pending)
    (hstep : p.Steps formatF env event p') :
    ∃ shown queued pending,
      Refined good formatF env tables (calls ++ appendsOf [event]) p' shown queued pending := by
  cases transition_of_steps hstep with
  | appended call => exact ⟨_, _, _, h.appended (hcalls call (by simp [appendsOf]))⟩
  | flushed => exact ⟨_, _, _, by simpa [appendsOf] using h.flushed⟩
  | entered hexecutor =>
      exact ⟨_, _, _, by simpa [appendsOf] using h.moved (sameTasks_enter hconn hexecutor)⟩
  | executed htask hquery hexecutor =>
      obtain ⟨b, rest, -, hrefined⟩ := h.executed hserver hnumerals hgood htask hquery hexecutor
      exact ⟨_, _, _, by simpa [appendsOf] using hrefined⟩
  | failed hexecutor =>
      exact ⟨_, _, _, by simpa [appendsOf] using h.moved (sameTasks_failed hexecutor)⟩
  | advanced hexecutor =>
      exact ⟨_, _, _, by simpa [appendsOf] using h.moved (sameTasks_next hexecutor)⟩
  | left hexecutor =>
      exact ⟨_, _, _, by simpa [appendsOf] using h.moved (sameTasks_leave hexecutor)⟩

theorem refined_start {start : server.State} (hstart : Represents (server.contents start) tables) :
    Refined good formatF env tables [] { state := start } {} [] [] where
  running := rfl
  task := rfl
  queue := rfl
  values := by simp
  goodQueued := by simp
  goodPending := by simp
  rows := hstart
  order := rfl

theorem refined_of_run (hserver : server.Executes primaryKey HashText)
    (hnumerals : WritesNumerals env.decimals) (hgood : ∀ call, good call → CleanCall call)
    {start : server.State} (hstart : Represents (server.contents start) tables)
    {events : List Event} (hrun : Run (Pipeline.Steps formatF env) { state := start } events p)
    (hcalls : ∀ call ∈ appendsOf events, good call)
    (hconn : ∀ event ∈ events, Connected event) :
    ∃ shown queued pending,
      Refined good formatF env tables (appendsOf events) p shown queued pending := by
  refine Run.invariant
    (fun events => (∀ call ∈ appendsOf events, good call) ∧ ∀ event ∈ events, Connected event)
    (fun events p => ∃ shown queued pending,
      Refined good formatF env tables (appendsOf events) p shown queued pending)
    ?_ ⟨_, _, _, refined_start hstart⟩ ?_ hrun ⟨hcalls, hconn⟩
  · rintro events event ⟨hcalls, hconn⟩
    rw [appendsOf_append] at hcalls
    exact ⟨fun call hcall => hcalls call (List.mem_append_left _ hcall),
      fun other hother => hconn other (List.mem_append_left _ hother)⟩
  · rintro events event p p' ⟨hcalls, hconn⟩ - ⟨shown, queued, pending, h⟩ hstep
    rw [appendsOf_append] at hcalls ⊢
    exact refined_step hserver hnumerals hgood
      (fun call hcall => hcalls call (List.mem_append_right _ hcall)) (hconn event (by simp)) h
      hstep

theorem rowTask_of_taskTexts_empty (h : taskTexts formatF env pending = ∅) :
    rowTask env pending = {} := by
  have hnone : ∀ table : Table,
      ((Batch.mk table pending).value formatF env).isSome = false := by
    intro table
    rw [Batch.value, h]
    rfl
  have htorrent := value_isSome_iff formatF env (Batch.mk .torrent pending)
  have hpayment := value_isSome_iff formatF env (Batch.mk .torrentPayment pending)
  rw [hnone] at htorrent hpayment
  simp only [Bool.false_eq_true, false_iff, not_not] at htorrent hpayment
  rw [rowTask_eq] at *
  simp only at htorrent hpayment
  rw [htorrent, hpayment]

theorem Refined.idle (h : Refined good formatF env tables calls p shown queued pending)
    (hidle : p.Idle) : shown = rowTask env calls := by
  obtain ⟨htask, hwaiting⟩ := hidle
  have hqueued : queued = [] := by simpa [hwaiting] using h.queue
  have hpending := rowTask_of_taskTexts_empty (h.task.symm.trans htask)
  have horder := h.order
  rw [hqueued, hpending] at horder
  rw [← horder]
  exact (concat_empty shown).symm

end Refinement

section CatchingUp

variable {formatF : UInt64 → Numeral} {env : Environment} {server : Server} {tables : Tables}
  {calls : List Append} {p p' : Pipeline server} {shown : MysqlTask} {queued : List Batch}
  {pending : List Append} {good : Append → Prop} {fits : String → List Value → Prop}

/-- The row of the record, if it has one, fits its table. -/
def CallFits (formatF : UInt64 → Numeral) (env : Environment)
    (fits : String → List Value → Prop) : Append → Prop
  | .torrent now b =>
      ∀ row, torrentRow env b = some row → fits "torrent" (torrentRowValues (formatF now) row)
  | .torrentPayment now b =>
      ∀ row, torrentPaymentRow env b.payment = some row →
        fits "torrent_payment"
          (torrentPaymentRowValues (formatF now) b.payPiecesText b.increaseTrxText row)

theorem fits_batch {b : Batch} (h : ∀ call ∈ b.calls, CallFits formatF env fits call) :
    ∀ values ∈ (b.replace formatF env).tuples, fits (b.replace formatF env).table values := by
  intro values hvalues
  cases htable : b.table with
  | torrent =>
      simp only [Batch.replace, htable, torrents, List.filterMap_filterMap, List.mem_filterMap,
        Option.bind_eq_some_iff, Option.map_eq_some_iff] at hvalues ⊢
      obtain ⟨append, hmem, call, hcall, row, hrow, rfl⟩ := hvalues
      cases append with
      | torrent now t =>
          cases hcall
          exact h _ hmem row hrow
      | torrentPayment now tp => cases hcall
  | torrentPayment =>
      simp only [Batch.replace, htable, payments, List.filterMap_filterMap, List.mem_filterMap,
        Option.bind_eq_some_iff, Option.map_eq_some_iff] at hvalues ⊢
      obtain ⟨append, hmem, call, hcall, row, hrow, rfl⟩ := hvalues
      cases append with
      | torrent now t => cases hcall
      | torrentPayment now tp =>
          cases hcall
          exact h _ hmem row hrow

/-- The executor comes to its next task without losing one. -/
theorem reach_task {task : SqlExecutor.MysqlTask} {rest : List SqlExecutor.MysqlTask}
    (hwaiting : p.executor.waiting = task :: rest) :
    ∃ events executor, Run (Pipeline.Steps formatF env) p events { p with executor := executor } ∧
      appendsOf events = [] ∧ (∀ event ∈ events, Connected event) ∧
      SameTasks p.executor executor ∧ ∃ flag, executor.running = some ⟨flag, some task⟩ := by
  obtain ⟨ptask, ⟨queue, running, submitted, answered⟩, state⟩ := p
  obtain ⟨pending, stopped⟩ := queue
  rcases running with _ | ⟨flag, _ | current⟩
  · obtain ⟨rfl⟩ : pending = task :: rest := by simpa [Executor.waiting] using hwaiting
    refine ⟨[.enter true true], _, Run.nil.snoc rfl, rfl, ?_, ⟨?_, rfl, rfl⟩, .pooled, rfl⟩
    · intro event hevent
      rw [List.mem_singleton.mp hevent]
      rfl
    · simp [Executor.waiting]
  · obtain ⟨rfl⟩ : pending = task :: rest := by simpa [Executor.waiting] using hwaiting
    refine ⟨[.next], _, Run.nil.snoc rfl, rfl, ?_, ⟨?_, rfl, rfl⟩, flag, rfl⟩
    · intro event hevent
      rw [List.mem_singleton.mp hevent]
      trivial
    · simp [Executor.waiting]
  · obtain ⟨rfl, -⟩ : current = task ∧ pending = rest := by simpa [Executor.waiting] using hwaiting
    exact ⟨[], _, .nil, rfl, by simp, ⟨rfl, rfl, rfl⟩, flag, rfl⟩

/-- A record of which the server takes the row. -/
def Acceptable (formatF : UInt64 → Numeral) (env : Environment)
    (fits : String → List Value → Prop) (call : Append) : Prop :=
  CleanCall call ∧ CallFits formatF env fits call

/-- From any state the statements on their way can all be executed. -/
theorem Refined.drained (hserver : server.Executes primaryKey HashText)
    (haccepts : server.Accepts primaryKey HashText fits) (hnumerals : WritesNumerals env.decimals)
    (h : Refined (Acceptable formatF env fits) formatF env tables calls p shown queued []) :
    ∃ events p' shown', Run (Pipeline.Steps formatF env) p events p' ∧ appendsOf events = [] ∧
      (∀ event ∈ events, Connected event) ∧
      Refined (Acceptable formatF env fits) formatF env tables calls p' shown' [] [] := by
  induction queued generalizing p shown with
  | nil => exact ⟨[], p, shown, .nil, rfl, by simp, h⟩
  | cons b rest ih =>
      have hwaiting := h.queue
      rw [List.map_cons] at hwaiting
      obtain ⟨events, executor, hrun, hnone, hconn, hsame, flag, hrunning⟩ :=
        @reach_task formatF env server p _ _ hwaiting
      have hvalue := h.values b List.mem_cons_self
      have hgood := h.goodQueued b List.mem_cons_self
      have hclean : ∀ call ∈ b.calls, CleanCall call := fun call hcall => (hgood call hcall).1
      obtain ⟨state, hstate⟩ := Option.isSome_iff_exists.mp
        (haccepts p.state _ _ (lex_batch hnumerals hclean hvalue) (keyed_batch hclean hvalue)
          (fits_batch fun call hcall => (hgood call hcall).2))
      have htask : executor.running.bind Execution.task = some (b.task formatF env) := by
        rw [hrunning]
        rfl
      obtain ⟨executor', hexecutor⟩ : ∃ executor',
          executor.query .batch .accepted = some executor' := by
        simp [Executor.query, hrunning]
      have hstep : Pipeline.Steps formatF env { p with executor := executor } (.query true)
          { p with executor := executor', state := state } := by
        simp [Pipeline.Steps, Pipeline.step, Pipeline.query, htask, hstate, hexecutor]
      obtain ⟨other, others, heq, hexecuted⟩ :=
        (h.moved hsame).executed hserver hnumerals (fun _ hcall => hcall.1) htask hstate hexecutor
      obtain ⟨rfl, rfl⟩ := List.cons.inj heq
      obtain ⟨more, p', shown', hmore, hnone', hconn', hdrained⟩ := ih hexecuted
      refine ⟨events ++ [.query true] ++ more, p', shown', (hrun.snoc hstep).append hmore, ?_, ?_,
        hdrained⟩
      · rw [appendsOf_append, appendsOf_append, hnone, hnone']
        rfl
      · intro event hevent
        simp only [List.mem_append, List.mem_singleton] at hevent
        rcases hevent with (hevent | rfl) | hevent
        · exact hconn event hevent
        · trivial
        · exact hconn' event hevent

theorem Refined.isIdle (h : Refined good formatF env tables calls p shown [] []) : p.Idle :=
  ⟨h.task, h.queue⟩

/-- A flush and the executor alone bring every run to a state in which nothing is on its way. -/
theorem drained_of_run (hserver : server.Executes primaryKey HashText)
    (haccepts : server.Accepts primaryKey HashText fits) (hnumerals : WritesNumerals env.decimals)
    {start : server.State} (hstart : Represents (server.contents start) tables)
    {events : List Event} (hrun : Run (Pipeline.Steps formatF env) { state := start } events p)
    (hcalls : ∀ call ∈ appendsOf events, Acceptable formatF env fits call)
    (hconn : ∀ event ∈ events, Connected event) :
    ∃ more p' shown, Run (Pipeline.Steps formatF env) p (.flush :: more) p' ∧
      appendsOf more = [] ∧ (∀ event ∈ .flush :: more, Connected event) ∧
      Refined (Acceptable formatF env fits) formatF env tables (appendsOf events) p' shown
        [] [] := by
  obtain ⟨shown, queued, pending, h⟩ :=
    refined_of_run hserver hnumerals (fun _ hcall => hcall.1) hstart hrun hcalls hconn
  obtain ⟨more, p', shown', hmore, hnone, hconn', hdrained⟩ :=
    h.flushed.drained hserver haccepts hnumerals
  have hflush : Pipeline.Steps formatF env p .flush p.flush := rfl
  refine ⟨more, p', shown', Run.cons hflush hmore, hnone, ?_, hdrained⟩
  rw [List.forall_mem_cons]
  exact ⟨trivial, hconn'⟩

theorem exists_idle_run (hserver : server.Executes primaryKey HashText)
    (haccepts : server.Accepts primaryKey HashText fits) (hnumerals : WritesNumerals env.decimals)
    {start : server.State} (hstart : Represents (server.contents start) tables)
    {events : List Event} (hrun : Run (Pipeline.Steps formatF env) { state := start } events p)
    (hcalls : ∀ call ∈ appendsOf events, Acceptable formatF env fits call)
    (hconn : ∀ event ∈ events, Connected event) :
    ∃ more p', Run (Pipeline.Steps formatF env) { state := start } (events ++ .flush :: more) p' ∧
      appendsOf (events ++ .flush :: more) = appendsOf events ∧
      (∀ event ∈ events ++ .flush :: more, Connected event) ∧ p'.Idle := by
  obtain ⟨more, p', shown, hmore, hnone, hconn', hdrained⟩ :=
    drained_of_run hserver haccepts hnumerals hstart hrun hcalls hconn
  refine ⟨more, p', hrun.append hmore, ?_, ?_, hdrained.isIdle⟩
  · rw [appendsOf_append, show appendsOf (.flush :: more) = [] from hnone, List.append_nil]
  · rw [List.forall_mem_append]
    exact ⟨hconn, hconn'⟩

/-- While all texts are clean and every call of the executor finds a connection, the server
holds the rows of the first calls of each kind, and of all calls once nothing is on its way. -/
theorem texts_refine_rows (hserver : server.Executes primaryKey HashText)
    (hnumerals : WritesNumerals env.decimals) {start : server.State}
    (hstart : Represents (server.contents start) tables) {events : List Event}
    (hrun : Run (Pipeline.Steps formatF env) { state := start } events p)
    (hclean : ∀ call ∈ appendsOf events, CleanCall call)
    (hconn : ∀ event ∈ events, Connected event) :
    ∃ shown rest : MysqlTask, shown.concat rest = rowTask env (appendsOf events) ∧
      Represents (server.contents p.state) (tables.applyTask shown) ∧
      (p.Idle → shown = rowTask env (appendsOf events)) := by
  obtain ⟨shown, queued, pending, h⟩ :=
    refined_of_run hserver hnumerals (fun _ hcall => hcall) hstart hrun hclean hconn
  exact ⟨shown, _, h.order, h.rows, h.idle⟩

end CatchingUp

section Sample

def emptyContents : Contents := fun _ _ => none

theorem represents_empty : Represents emptyContents .empty :=
  ⟨fun _ => .none, fun _ => .none⟩

def callOfUser (creator : String) : Append :=
  .torrent sampleClock
    (HandleBlock.createdTorrent HandleBlock.sampleCreate.trx 1
      { HandleBlock.sampleCreateOperation with creator := creator })

theorem callOfUser_value (creator : String) :
    (Batch.value sampleFormatF .oneAsset
      { table := .torrent, calls := [callOfUser creator] }).isSome = true :=
  (value_isSome_iff _ _ _).mpr (List.cons_ne_nil _ _)

theorem acceptable_callOfUser {creator : String} (hcreator : Clean (cStr creator).toList) :
    Acceptable sampleFormatF .oneAsset (fun _ _ => True) (callOfUser creator) := by
  refine ⟨⟨?_, HandleBlock.sampleCreateOperation.id, rfl⟩, fun _ _ => trivial⟩
  simp only [TorrentClean, List.forall_mem_cons]
  exact ⟨show Clean HandleBlock.sampleCreateOperation.id.str.toList by decide +kernel,
    show Clean HandleBlock.sampleCreate.trx.id.str.toList by decide +kernel, hcreator, by simp⟩

def callOfPayer (creator : String) : Append :=
  .torrentPayment sampleClock
    { payment :=
        { (paymentOfUser creator).payment with paymentId := HandleBlock.samplePayment.trx.id.str }
      payPieces := (paymentOfUser creator).payPieces
      increaseTrx := (paymentOfUser creator).increaseTrx
      payPieces_eq := rfl
      increaseTrx_eq := rfl }

theorem acceptable_callOfPayer {creator : String} (hcreator : Clean creator.toList) :
    Acceptable sampleFormatF .oneAsset (fun _ _ => True) (callOfPayer creator) := by
  refine ⟨⟨⟨?_, ?_, ?_⟩, HandleBlock.samplePayment.trx.id, rfl⟩, fun _ _ => trivial⟩
  · simp only [paymentOfUser, List.forall_mem_cons]
    exact ⟨show Clean HandleBlock.samplePayment.trx.id.str.toList by decide +kernel, by decide,
      hcreator, by decide, by decide, by decide, by decide, by simp⟩
  · exact (paymentOfUser_readable hcreator).payPieces
  · exact (paymentOfUser_readable hcreator).increaseTrx

theorem batchTasks_callOfUser (creator : String) :
    batchTasks (taskTexts sampleFormatF .oneAsset [callOfUser creator]) =
      [Batch.task sampleFormatF .oneAsset
        { table := .torrent, calls := [callOfUser creator] }] := by
  have hpayment : (Batch.value sampleFormatF .oneAsset
      { table := .torrentPayment, calls := [callOfUser creator] }).isSome = false := by
    rw [← Bool.not_eq_true, value_isSome_iff]
    exact fun h => h rfl
  rw [batchTasks_taskTexts, batchesOf, List.filter_cons, hpayment, List.filter_cons,
    callOfUser_value]
  rfl

def callTask (creator : String) : SqlExecutor.MysqlTask :=
  Batch.task sampleFormatF .oneAsset
    { table := .torrent, calls := [callOfUser creator] }

theorem flush_callOfUser (creator : String) (executor : Executor) :
    ({ task := taskTexts sampleFormatF .oneAsset [callOfUser creator]
       executor := executor
       state := emptyContents } : Pipeline literalServer).flush =
      { executor := executor.put (callTask creator), state := emptyContents } := by
  rw [Pipeline.flush, batchTasks_callOfUser]
  rfl

/-- A pipeline whose only record so far waits to be flushed. -/
def afterCall (creator : String) : Pipeline literalServer where
  task := taskTexts sampleFormatF .oneAsset [callOfUser creator]
  state := emptyContents

theorem run_afterCall (creator : String) :
    Run (Pipeline.Steps sampleFormatF .oneAsset) { state := emptyContents }
      [.append (callOfUser creator)] (afterCall creator) :=
  Run.cons rfl .nil

/-- Calls of both functions, the first of them flushed on its own; its statement fails once. -/
def twoFlushes : List Event :=
  [.append (callOfUser "author"), .flush, .enter true true, .query false,
    .append (callOfPayer "reader"), .append (callOfUser "editor")]

theorem run_twoFlushes :
    ∃ p : Pipeline literalServer,
      Run (Pipeline.Steps sampleFormatF .oneAsset) { state := emptyContents } twoFlushes p :=
  ⟨_, (run_afterCall "author").append (Run.cons (congrArg some (flush_callOfUser "author" {}))
    (Run.cons rfl (Run.cons rfl (Run.cons rfl (Run.cons rfl .nil)))))⟩

theorem acceptable_twoFlushes : ∀ call ∈ appendsOf twoFlushes,
    Acceptable sampleFormatF .oneAsset (fun _ _ => True) call := by
  change ∀ call ∈ [callOfUser "author", callOfPayer "reader", callOfUser "editor"], _
  simp only [List.forall_mem_cons]
  exact ⟨acceptable_callOfUser (by decide), acceptable_callOfPayer (by decide),
    acceptable_callOfUser (by decide), by simp⟩

theorem connected_twoFlushes : ∀ event ∈ twoFlushes, Connected event := by
  simp [twoFlushes, Connected, getMysqlConn]

theorem texts_refine_rows_author :
    ∃ (more : List Event) (p : Pipeline literalServer) (shown : MysqlTask),
      Run (Pipeline.Steps sampleFormatF .oneAsset) { state := emptyContents }
        (twoFlushes ++ .flush :: more) p ∧ p.Idle ∧
      Represents (literalServer.contents p.state) (Tables.empty.applyTask shown) ∧
      shown = rowTask .oneAsset
        [callOfUser "author", callOfPayer "reader", callOfUser "editor"] := by
  obtain ⟨p, hrun⟩ := run_twoFlushes
  obtain ⟨more, p', hidleRun, hcalls, hconn, hidle⟩ :=
    exists_idle_run (literalServer_executes _ _) (literalServer_accepts _ _ fun _ _ => True)
      scaled_writesNumerals represents_empty hrun acceptable_twoFlushes connected_twoFlushes
  obtain ⟨shown, rest, -, hrows, hall⟩ :=
    texts_refine_rows (literalServer_executes _ _) scaled_writesNumerals represents_empty hidleRun
      (fun call hcall => (acceptable_twoFlushes call (hcalls ▸ hcall)).1) hconn
  refine ⟨more, p', shown, hidleRun, hidle, hrows, ?_⟩
  rw [hall hidle, hcalls]
  rfl

end Sample

end TorrentServer.MysqlPipeline
