import MatrixSpooll.Library.KeyedTable
import MatrixSpooll.Queue.Lifecycle
import Mathlib.Data.List.Sort

/-!
# Task rows and guarded updates

The `tasks` table of `lib/db/models/task.py`, the log of terminal events a
`TaskRepository` collects, and the two statements every operation of the
repository is made of: an `UPDATE` of one row guarded by its status, and the
same `UPDATE` followed by the record of a terminal event.

Clock readings are numbers, JSON columns are their texts.  `ORDER BY` keeps
rows with equal keys in table order.
-/

namespace MatrixSpooll.Queue

open Library KeyedTable

structure Task where
  taskId : String
  projectId : Option String
  projectName : String
  taskType : String
  mediaType : String
  resourceId : String
  scriptFile : Option String
  resourceType : Option String
  payloadJson : String
  status : TaskStatus
  resultJson : Option String
  errorMessage : Option String
  dependencyTaskId : Option String
  cancelledBy : Option String
  providerId : Option String
  queuedAt : Nat
  startedAt : Option Nat
  finishedAt : Option Nat
  updatedAt : Nat
  deriving DecidableEq, Repr

structure TerminalEvent where
  taskId : String
  projectName : String
  status : TaskStatus
  taskType : String
  deriving DecidableEq, Repr

abbrev TaskTable := KeyedTable Task String Task.taskId

/-- The table and every terminal event published so far. -/
structure TaskQueue where
  tasks : TaskTable
  terminalEvents : List TerminalEvent

/-- The texts stored with a failure: `encode_failure` and `bound_reason` of
`lib/task_failure.py`, and `_encode_bounded_cascade_failure`, which is given
the blocking task and the reason. -/
structure FailureText where
  encodeFailure : String → List (String × String) → String
  boundReason : String → Nat → String
  encodeBoundedCascadeFailure : String → String → String

def FailureText.verbatim : FailureText :=
  { encodeFailure := fun code _ => code
    boundReason := fun reason _ => reason
    encodeBoundedCascadeFailure := fun _ reason => reason }

def maxErrorMessageLen : Nat := 2000

/-- `ORDER BY column ASC`. -/
def orderBy (column : Task → Nat) (rows : List Task) : List Task :=
  rows.insertionSort (fun first second => column first ≤ column second)

theorem mem_orderBy {column : Task → Nat} {rows : List Task} {task : Task} :
    task ∈ orderBy column rows ↔ task ∈ rows :=
  List.mem_insertionSort _

namespace TaskQueue

def empty : TaskQueue :=
  { tasks := .empty
    terminalEvents := [] }

variable (queue : TaskQueue)

def find? (taskId : String) : Option Task :=
  queue.tasks.find? taskId

/-- The terminal events of one task. -/
def eventsOf (taskId : String) : List TerminalEvent :=
  queue.terminalEvents.filter (fun event => event.taskId = taskId)

def recordTerminalEvent (event : TerminalEvent) : TaskQueue :=
  if event.status.isTerminal then
    { queue with terminalEvents := queue.terminalEvents ++ [event] }
  else queue

/-- `UPDATE tasks SET assign WHERE task_id = taskId AND guard`. -/
def updateTask (taskId : String) (guard : TaskStatus → Bool) (assign : Task → Task)
    (keyFixed : ∀ task, (assign task).taskId = task.taskId) : TaskQueue × Nat :=
  let matched := fun task : Task => (task.taskId = taskId) && guard task.status
  ({ queue with tasks := queue.tasks.update matched assign keyFixed }, queue.tasks.rowcount matched)

/-- A guarded update to a terminal status.  When it matches, the row is read
again and its terminal event is recorded. -/
def settleTask (taskId : String) (guard : TaskStatus → Bool) (assign : Task → Task)
    (keyFixed : ∀ task, (assign task).taskId = task.taskId)
    (status : TaskStatus) : TaskQueue × Nat :=
  let (updated, affected) := queue.updateTask taskId guard assign keyFixed
  if affected = 0 then (queue, 0)
  else
    match updated.find? taskId with
    | some row =>
      (updated.recordTerminalEvent
        { taskId := taskId
          projectName := row.projectName
          status := status
          taskType := row.taskType }, affected)
    | none => (updated, affected)

def board : Board String :=
  { job := fun taskId => (queue.find? taskId).map (fun task => ⟨task.status, task.dependencyTaskId⟩)
    log := queue.terminalEvents.map (fun event => (event.taskId, event.status)) }

variable {queue : TaskQueue} {taskId : String} {task : Task}

theorem board_job_of_find (found : queue.find? taskId = some task) :
    queue.board.job taskId = some ⟨task.status, task.dependencyTaskId⟩ := by
  simp [board, found]

theorem find_of_board_job {job : Job String} (found : queue.board.job taskId = some job) :
    ∃ task, queue.find? taskId = some task ∧ task.status = job.status ∧
      task.dependencyTaskId = job.dependency := by
  simp only [board, Option.map_eq_some_iff] at found
  obtain ⟨task, row, equality⟩ := found
  subst equality
  exact ⟨task, row, rfl, rfl⟩

theorem find_updateTask (queue : TaskQueue) (taskId : String)
    (guard : TaskStatus → Bool) (assign : Task → Task)
    (keyFixed : ∀ task, (assign task).taskId = task.taskId) (wanted : String) :
    (queue.updateTask taskId guard assign keyFixed).1.find? wanted =
      (queue.find? wanted).map (fun task =>
        if (task.taskId = taskId) && guard task.status then assign task else task) := by
  exact find?_update queue.tasks _ assign keyFixed wanted

variable {guard : TaskStatus → Bool} {assign : Task → Task}
  {keyFixed : ∀ task, (assign task).taskId = task.taskId}

theorem updateTask_rowcount_pos (matched : (queue.updateTask taskId guard assign keyFixed).2 ≠ 0) :
    ∃ task, queue.find? taskId = some task ∧ guard task.status = true :=
  rowcount_key_pos matched

theorem updateTask_rowcount_zero (unmatched : (queue.updateTask taskId guard assign keyFixed).2 = 0)
    (found : queue.find? taskId = some task) :
    guard task.status = false := by
  have none := rowcount_eq_zero_iff.mp unmatched task (find?_mem found)
  simpa [find?_key found] using none

theorem find_updateTask_self (found : queue.find? taskId = some task)
    (holds : guard task.status = true) :
    (queue.updateTask taskId guard assign keyFixed).1.find? taskId = some (assign task) := by
  rw [find_updateTask, found, Option.map_some]
  simp [find?_key found, holds]

theorem find_updateTask_other {wanted : String} (different : wanted ≠ taskId) :
    (queue.updateTask taskId guard assign keyFixed).1.find? wanted = queue.find? wanted := by
  rw [find_updateTask]
  cases row : queue.find? wanted with
  | none => rfl
  | some task =>
    have key : task.taskId ≠ taskId := by
      rw [find?_key row]
      exact different
    simp [key]

theorem board_updateTask (found : queue.find? taskId = some task)
    (holds : guard task.status = true) : (queue.updateTask taskId guard assign keyFixed).1.board =
      { job := Function.update queue.board.job taskId
          (some ⟨(assign task).status, (assign task).dependencyTaskId⟩)
        log := queue.board.log } := by
  have jobs : (queue.updateTask taskId guard assign keyFixed).1.board.job =
      Function.update queue.board.job taskId
        (some ⟨(assign task).status, (assign task).dependencyTaskId⟩) := by
    funext wanted
    by_cases same : wanted = taskId
    · subst same
      rw [Function.update_self]
      exact board_job_of_find (find_updateTask_self found holds)
    · rw [Function.update_of_ne same]
      simp only [board, find_updateTask_other same]
  rw [← jobs]
  rfl

theorem updateTask_cases (queue : TaskQueue) (taskId : String)
    (guard : TaskStatus → Bool) (assign : Task → Task)
    (keyFixed : ∀ task, (assign task).taskId = task.taskId)
    (after : TaskStatus) (unsettled : after.isTerminal = false)
    (assigned : ∀ task, (assign task).status = after) (sameDependency : ∀ task,
      (assign task).dependencyTaskId = task.dependencyTaskId) :
    ((queue.updateTask taskId guard assign keyFixed).2 = 0 ∧
      (queue.updateTask taskId guard assign keyFixed).1.board = queue.board ∧
      ∀ task, queue.find? taskId = some task → guard task.status = false) ∨
    ((queue.updateTask taskId guard assign keyFixed).2 ≠ 0 ∧
      ∃ before, queue.find? taskId = some before ∧ guard before.status = true ∧
        (queue.updateTask taskId guard assign keyFixed).1.board =
          queue.board.place taskId ⟨after, before.dependencyTaskId⟩) := by
  by_cases zero : (queue.updateTask taskId guard assign keyFixed).2 = 0
  · left
    have unguarded : ∀ task, queue.find? taskId = some task → guard task.status = false := by
      intro task found
      exact updateTask_rowcount_zero zero found
    refine ⟨zero, ?_, unguarded⟩
    have lookups : ∀ wanted, (queue.updateTask taskId guard assign keyFixed).1.find? wanted =
          queue.find? wanted := by
      intro wanted
      by_cases same : wanted = taskId
      · subst same
        rw [find_updateTask]
        cases row : queue.find? wanted with
        | none => rfl
        | some task => simp [unguarded task row]
      · exact find_updateTask_other same
    simp only [board, lookups]
    rfl
  · right
    obtain ⟨before, found, holds⟩ := updateTask_rowcount_pos zero
    refine ⟨zero, before, found, holds, ?_⟩
    rw [board_updateTask found holds, assigned, sameDependency]
    simp [Board.place, Board.entry, unsettled]

@[simp] theorem find_recordTerminalEvent (queue : TaskQueue)
    (event : TerminalEvent) (wanted : String) :
    (queue.recordTerminalEvent event).find? wanted = queue.find? wanted := by
  unfold recordTerminalEvent
  split <;> rfl

variable {status : TaskStatus}

theorem board_settleTask (found : queue.find? taskId = some task) (holds : guard task.status = true)
    (assigned : (assign task).status = status)
    (sameDependency : (assign task).dependencyTaskId = task.dependencyTaskId)
    (event : TerminalEvent) (eventTask : event.taskId = taskId)
    (eventStatus : event.status = status) :
    ((queue.updateTask taskId guard assign keyFixed).1.recordTerminalEvent event).board =
      queue.board.place taskId ⟨status, task.dependencyTaskId⟩ := by
  have update : (queue.updateTask taskId guard assign keyFixed).1.board = _ :=
    board_updateTask found holds
  unfold recordTerminalEvent Board.place Board.entry
  simp only [eventStatus]
  split
  · have jobs := congrArg Board.job update
    have logs := congrArg Board.log update
    simp only [assigned, sameDependency] at jobs
    simp only [board] at logs jobs ⊢
    rw [List.map_append, logs]
    simp only [List.map_cons, List.map_nil, eventTask, eventStatus, Board.mk.injEq, and_true]
    exact jobs
  · rw [update, assigned, sameDependency]
    simp

end TaskQueue

end MatrixSpooll.Queue
