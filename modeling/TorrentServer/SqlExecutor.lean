import TorrentServer.ConnectionPool
import TorrentServer.Library.TaskQueues

namespace TorrentServer.SqlExecutor

open TorrentServer.ConnectionPool
open TorrentServer.Library.Runs
open TorrentServer.Library.TaskQueues

structure MysqlTask where
  sql : String := ""
  type : String := ""
  value : String := ""

inductive Queue
  | batch
  | plain
deriving DecidableEq

/-- The statement of a task. The two executors differ in nothing else. -/
def Queue.statement : Queue → MysqlTask → String
  | .batch, task => task.type ++ task.value
  | .plain, task => task.sql

def putMysqlExeQueueBatch (type value : String) : MysqlTask :=
  { type := type, value := value }

def putMysqlExeQueue (sql : String) : MysqlTask :=
  { sql := sql }

/-- What `mysql_real_query` says of a statement: `duplicate` is an error with
number 1062. -/
inductive Answer
  | accepted
  | duplicate
  | failed
deriving DecidableEq

/-- A running call of the executor: `none` is its iterator past the last task of
the group. -/
structure Execution where
  flag : Flag
  task : Option MysqlTask

/-- `submitted` are the tasks the queue has taken and `answered` the statements
that have been accepted or rejected as duplicate. -/
structure Executor where
  queue : ExecutionQueue MysqlTask := {}
  running : Option Execution := none
  submitted : List MysqlTask := []
  answered : List String := []

/-- The queue groups its tasks as it likes: after each of them the iterator moves
to the `next` one or the call is left. -/
inductive Event
  | put (task : MysqlTask)
  | stop
  | enter (dequeued connected : Bool)
  | query (answer : Answer)
  | next
  | leave

def Executor.put (e : Executor) (task : MysqlTask) : Executor :=
  { e with
    queue := e.queue.execute task
    submitted := if e.queue.stopped then e.submitted else e.submitted ++ [task] }

/-- The iterator stands on the first task when the connection is asked for. If
there is none the call returns, and the task is not handed out again. -/
def Executor.enter (e : Executor) (dequeued connected : Bool) : Option Executor :=
  match e.running, e.queue.pending with
  | none, task :: pending =>
      let e := { e with queue := { e.queue with pending := pending } }
      match getMysqlConn dequeued connected with
      | some flag => some { e with running := some { flag := flag, task := some task } }
      | none => some e
  | _, _ => none

def Executor.query (q : Queue) (e : Executor) (answer : Answer) : Option Executor :=
  match e.running with
  | some { flag, task := some task } =>
      match answer with
      | .failed => some e
      | .accepted | .duplicate =>
          some
            { e with
              running := some { flag := flag, task := none }
              answered := e.answered ++ [q.statement task] }
  | _ => none

def Executor.next (e : Executor) : Option Executor :=
  match e.running, e.queue.pending with
  | some { flag, task := none }, task :: pending =>
      some
        { e with
          queue := { e.queue with pending := pending }
          running := some { flag := flag, task := some task } }
  | _, _ => none

def Executor.leave (e : Executor) : Option Executor :=
  match e.running with
  | some { task := none, .. } => some { e with running := none }
  | _ => none

def Executor.step (q : Queue) (e : Executor) : Event → Option Executor
  | .put task => some (e.put task)
  | .stop => some { e with queue := e.queue.stop }
  | .enter dequeued connected => e.enter dequeued connected
  | .query answer => e.query q answer
  | .next => e.next
  | .leave => e.leave

def Executor.Steps (q : Queue) (e : Executor) (event : Event) (e' : Executor) : Prop :=
  e.step q event = some e'

def obtainsConn : Event → Bool
  | .enter dequeued connected => (getMysqlConn dequeued connected).isSome
  | _ => true

def Executor.waiting (e : Executor) : List MysqlTask :=
  (e.running.bind Execution.task).toList ++ e.queue.pending

/-- No task is lost and none has overtaken another. -/
def Kept (q : Queue) (e : Executor) : Prop :=
  e.answered ++ e.waiting.map q.statement = e.submitted.map q.statement

variable {q : Queue} {e e' : Executor}

theorem Kept.put (h : Kept q e) (task : MysqlTask) : Kept q (e.put task) := by
  cases hstopped : e.queue.stopped with
  | true => simpa [Kept, Executor.put, Executor.waiting, ExecutionQueue.execute, hstopped] using h
  | false =>
      have hpending := ExecutionQueue.pending_execute hstopped task
      simp only [Kept, Executor.put, Executor.waiting, hpending, hstopped, List.map_append,
        ← List.append_assoc] at h ⊢
      rw [h]
      simp

theorem Kept.enter {dequeued connected : Bool} (h : Kept q e)
    (hconn : (getMysqlConn dequeued connected).isSome = true)
    (hstep : e.enter dequeued connected = some e') : Kept q e' := by
  obtain ⟨flag, hflag⟩ := Option.isSome_iff_exists.mp hconn
  unfold Executor.enter at hstep
  split at hstep
  · rename_i task pending hrunning hpending
    simp only [hflag, Option.some.injEq] at hstep
    subst hstep
    simpa [Kept, Executor.waiting, hrunning, hpending] using h
  · cases hstep

theorem Kept.query {answer : Answer} (h : Kept q e) (hstep : e.query q answer = some e') :
    Kept q e' := by
  unfold Executor.query at hstep
  split at hstep
  · rename_i flag task hrunning
    cases answer with
    | failed =>
        cases hstep
        exact h
    | accepted =>
        cases hstep
        simpa [Kept, Executor.waiting, hrunning] using h
    | duplicate =>
        cases hstep
        simpa [Kept, Executor.waiting, hrunning] using h
  · cases hstep

theorem Kept.next (h : Kept q e) (hstep : e.next = some e') : Kept q e' := by
  unfold Executor.next at hstep
  split at hstep
  · rename_i flag task pending hrunning hpending
    cases hstep
    simpa [Kept, Executor.waiting, hrunning, hpending] using h
  · cases hstep

theorem Kept.leave (h : Kept q e) (hstep : e.leave = some e') : Kept q e' := by
  unfold Executor.leave at hstep
  split at hstep
  · rename_i hrunning
    cases hstep
    simpa [Kept, Executor.waiting, hrunning] using h
  · cases hstep

theorem kept_step {event : Event} (hconn : obtainsConn event = true) (h : Kept q e)
    (hstep : e.Steps q event e') : Kept q e' := by
  cases event with
  | put task =>
      cases hstep
      exact h.put task
  | stop =>
      cases hstep
      exact h
  | enter dequeued connected => exact h.enter hconn hstep
  | query answer => exact h.query hstep
  | next => exact h.next hstep
  | leave => exact h.leave hstep

theorem kept_of_run {events : List Event} (hrun : Run (Executor.Steps q) {} events e)
    (hconn : ∀ event ∈ events, obtainsConn event = true) : Kept q e := by
  have hstart : Kept q {} := rfl
  exact hrun.state_invariant (fun event => obtainsConn event = true) (Kept q) hstart
    (fun _ _ _ => kept_step) hconn

/-- While every call is given a connection the answered statements are the first
ones submitted, and all of them once nothing is left to do. -/
theorem answered_prefix_of_run {events : List Event}
    (hrun : Run (Executor.Steps q) {} events e)
    (hconn : ∀ event ∈ events, obtainsConn event = true) :
    e.answered <+: e.submitted.map q.statement ∧
      (e.running = none → e.queue.pending = [] →
        e.answered = e.submitted.map q.statement) := by
  have hkept : Kept q e := kept_of_run hrun hconn
  refine ⟨⟨_, hkept⟩, fun hrunning hpending => ?_⟩
  simpa [Kept, Executor.waiting, hrunning, hpending] using hkept

def replaceTask (n : Nat) : MysqlTask :=
  putMysqlExeQueueBatch "REPLACE INTO torrent VALUES " s!"({n})"

def connectedEvents : List Event :=
  [ .put (replaceTask 1),
    .put (replaceTask 2),
    .enter true false,
    .query .accepted,
    .put (replaceTask 3),
    .stop,
    .next,
    .query .failed,
    .query .duplicate,
    .leave,
    .enter false true,
    .query .accepted ]

theorem answered_prefix_connectedEvents :
    ∃ e, Run (Executor.Steps .batch) {} connectedEvents e ∧
      e.answered <+: e.submitted.map Queue.batch.statement := by
  have hrun : Run (Executor.Steps .batch) {} connectedEvents _ := run_of_foldlM rfl
  exact ⟨_, hrun, (answered_prefix_of_run hrun (by decide)).1⟩

def droppedEvents : List Event :=
  [ .put (replaceTask 1),
    .put (replaceTask 2),
    .enter false false,
    .enter false true,
    .query .accepted ]

theorem statement_dropped :
    ¬ ∀ (q : Queue) (events : List Event) (e : Executor),
      Run (Executor.Steps q) {} events e → e.answered <+: e.submitted.map q.statement := by
  intro h
  have hprefix := h .batch droppedEvents _ (run_of_foldlM rfl)
  revert hprefix
  decide

end TorrentServer.SqlExecutor
