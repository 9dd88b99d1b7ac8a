import Mathlib.Data.List.Basic

namespace TorrentServer.Library.TaskQueues

/-- A queue whose tasks are run one after the other in the order of their
submission. Once it is stopped a submission fails; the tasks already pending
are still run. -/
structure ExecutionQueue (α : Type*) where
  pending : List α := []
  stopped : Bool := false

variable {α : Type*}

namespace ExecutionQueue

def execute (q : ExecutionQueue α) (task : α) : ExecutionQueue α :=
  if q.stopped then q else { q with pending := q.pending ++ [task] }

def executeAll (q : ExecutionQueue α) (tasks : List α) : ExecutionQueue α :=
  tasks.foldl execute q

def stop (q : ExecutionQueue α) : ExecutionQueue α :=
  { q with stopped := true }

@[simp] theorem stopped_execute (q : ExecutionQueue α) (task : α) :
    (q.execute task).stopped = q.stopped := by
  unfold execute
  split <;> rfl

@[simp] theorem stopped_executeAll (q : ExecutionQueue α) (tasks : List α) :
    (q.executeAll tasks).stopped = q.stopped := by
  induction tasks generalizing q with
  | nil => rfl
  | cons task tasks ih => exact (ih (q.execute task)).trans (q.stopped_execute task)

theorem pending_execute {q : ExecutionQueue α} (hrunning : q.stopped = false) (task : α) :
    (q.execute task).pending = q.pending ++ [task] := by
  simp [execute, hrunning]

theorem pending_executeAll {q : ExecutionQueue α} (hrunning : q.stopped = false)
    (tasks : List α) : (q.executeAll tasks).pending = q.pending ++ tasks := by
  induction tasks generalizing q with
  | nil => simp [executeAll]
  | cons task tasks ih =>
      have hnext : (q.execute task).stopped = false := by simpa using hrunning
      calc
        ((q.execute task).executeAll tasks).pending
            = (q.execute task).pending ++ tasks := ih hnext
        _ = q.pending ++ task :: tasks := by simp [pending_execute hrunning]

theorem executeAll_of_stopped {q : ExecutionQueue α} (hstopped : q.stopped = true)
    (tasks : List α) : q.executeAll tasks = q := by
  induction tasks with
  | nil => rfl
  | cons task tasks ih =>
      rw [executeAll, List.foldl_cons, execute, if_pos hstopped]
      exact ih

/-- A stopped queue takes nothing, but what is in it was in it or was submitted. -/
theorem mem_pending_executeAll {q : ExecutionQueue α} {tasks : List α} {task : α}
    (h : task ∈ (q.executeAll tasks).pending) : task ∈ q.pending ∨ task ∈ tasks := by
  induction tasks generalizing q with
  | nil => exact .inl h
  | cons first tasks ih =>
      rcases ih h with hnext | htasks
      · unfold execute at hnext
        split at hnext
        · exact .inl hnext
        · rcases List.mem_append.mp hnext with hold | hfirst
          · exact .inl hold
          · exact .inr (by simp [List.mem_singleton.mp hfirst])
      · exact .inr (List.mem_cons_of_mem _ htasks)

end ExecutionQueue

end TorrentServer.Library.TaskQueues
