import Mathlib
import MatrixSpooll.Queue.Repository

/-!
# Finishing a claimed task

`_process_task` of `lib/generation_worker.py` with everything that may happen
between its suspension points: `cancel_task` calls from outside, the cancel
signal they send to the future, the timeout of `wait_for`, and the drain that
looks at the future when it is done.

A write under `asyncio.shield` is a task of its own.  It goes on when the
coroutine that awaits it is cancelled, so the writes are kept in a list and the
coroutine only holds the index of the one it awaits.  A cancel request is
delivered at the next suspension point the coroutine leaves; what the executor
makes of one is left open.

`DispatchProviderChanged`, errors of the database and shutdown are left out.
-/

namespace MatrixSpooll.Worker

open Library Queue

/-- `CompensableGenerationResult`, with the number of times its callback has
been called. -/
structure CompensableResult where
  compensated : Bool
  compensations : Nat
  counted : compensations = if compensated then 1 else 0

namespace CompensableResult

def fresh : CompensableResult :=
  { compensated := false
    compensations := 0
    counted := rfl }

def compensateCancelled (result : CompensableResult) : CompensableResult :=
  if uncalled : result.compensated = true then result
  else
    { compensated := true
      compensations := result.compensations + 1
      counted := by
        have none := result.counted
        rw [if_neg uncalled] at none
        rw [none]
        rfl }

end CompensableResult

inductive Write where
  | succeeded (resultJson : String)
  | failed (message : String)
  | cancelled
  deriving DecidableEq, Repr

def Write.isSuccess : Write → Bool
  | .succeeded _ => true
  | _ => false

inductive WriteProgress where
  | created
  /-- The transaction is over; `rows` is what the guarded update reported. -/
  | committed (rows : Nat)
  /-- The compensation is over where there was one to run. -/
  | closing (rows : Nat)
  | finished (rows : Nat)
  deriving DecidableEq, Repr

def WriteProgress.rows : WriteProgress → Nat
  | .created => 0
  | .committed rows => rows
  | .closing rows => rows
  | .finished rows => rows

def WriteProgress.isFinished : WriteProgress → Bool
  | .finished _ => true
  | _ => false

structure WriteTask where
  write : Write
  progress : WriteProgress
  deriving DecidableEq, Repr

/-- How the executor ends.  `undone` is set when it held a result, took it back
itself and raised. -/
inductive Outcome where
  | returned (resultJson : String)
  | failed (message : String) (undone : Bool)
  | cancelled (undone : Bool)
  deriving DecidableEq, Repr

/-- Where `_process_task` is suspended. -/
inductive Position where
  | entering
  | executing
  | quarantining (message : String)
  /-- At `shield(mark_task_failed)`. -/
  | failing (index : Nat)
  /-- At `shield(mark_task)`. -/
  | succeeding (index : Nat)
  /-- At `wait_for(shield(mark_task), timeout=5)`. -/
  | salvaging (index : Nat)
  /-- At `shield(mark_task_cancelled)`; `raises` tells whether the branch ends
  with `raise`. -/
  | cancelling (index : Nat) (raises : Bool)
  /-- At `_sync_free_creation_metadata(discard_result=True)`. -/
  | discarding (raises : Bool)
  | ended (cancelled : Bool)
  deriving DecidableEq, Repr

structure ProcessTask where
  taskId : String
  taskType : String
  queue : TaskQueue
  writes : List WriteTask
  position : Position
  cancelRequested : Bool
  result : Option CompensableResult
  discardBegun : Bool
  drained : Bool

inductive RaceEvent where
  | cancelTask (now : Nat) (target : String)
  | requestCancel
  | executorEnds (outcome : Outcome)
  | resume
  | timeout
  | commit (now index : Nat)
  | advance (index : Nat)
  | drain (now : Nat)
  deriving DecidableEq, Repr

namespace ProcessTask

/-- The execution of a task that has just been claimed. -/
def claimed (queue : TaskQueue) (taskId taskType : String) : ProcessTask :=
  { taskId := taskId
    taskType := taskType
    queue := queue
    writes := []
    position := .entering
    cancelRequested := false
    result := none
    discardBegun := false
    drained := false }

variable (text : FailureText) (state : ProcessTask)

/-- `asyncio.shield` of a new write, awaited at `position`. -/
def submit (write : Write) (position : Nat → Position) : ProcessTask :=
  { state with
    writes := state.writes ++ [⟨write, .created⟩]
    position := position state.writes.length
    cancelRequested := false }

/-- The coroutine goes on without a new write. -/
def goto (position : Position) : ProcessTask :=
  { state with
    position := position
    cancelRequested := false }

def finishedRows (index : Nat) : Option Nat :=
  match state.writes[index]? with
  | some ⟨_, .finished rows⟩ => some rows
  | _ => none

/-- The code after `wait_for`, whichever way that ended. -/
def afterSalvage (index : Nat) : ProcessTask :=
  match state.finishedRows index with
  | none => state.goto (.ended true)
  | some 0 => state.submit .cancelled (.cancelling · true)
  | some _ => state.goto (.ended true)

/-- The code after an update whose rowcount decides. -/
def afterRows (rows : Nat) : ProcessTask :=
  if rows = 0 then state.submit .cancelled (.cancelling · false)
  else state.goto (.ended false)

/-- The coroutine leaves the suspension point it is at. -/
def resume : Option ProcessTask :=
  match state.position with
  | .entering =>
    if state.cancelRequested then some (state.goto (.ended true))
    else some (state.goto .executing)
  | .executing => none
  | .quarantining message =>
    if state.cancelRequested then some (state.goto (.ended true))
    else some (state.submit (.failed message) .failing)
  | .failing index =>
    if state.cancelRequested then some (state.goto (.ended true))
    else (state.finishedRows index).map state.afterRows
  | .succeeding index =>
    if state.cancelRequested then some (state.goto (.salvaging index))
    else (state.finishedRows index).map state.afterRows
  | .salvaging index =>
    if state.cancelRequested || (state.finishedRows index).isSome then
      some (state.afterSalvage index)
    else none
  | .cancelling index raises =>
    if state.cancelRequested then some (state.goto (.ended true))
    else (state.finishedRows index).map (fun _ =>
      { state.goto (.discarding raises) with discardBegun := true })
  | .discarding raises =>
    if state.cancelRequested then some (state.goto (.ended true))
    else some (state.goto (.ended raises))
  | .ended _ => none

/-- A result the executor took back before it raised. -/
def withUndone (undone : Bool) : ProcessTask :=
  if undone then
    { state with
      result := some CompensableResult.fresh.compensateCancelled }
  else state

def executorEnds : Outcome → ProcessTask
  | .returned resultJson =>
    { state with result := some .fresh }.submit (.succeeded resultJson) .succeeding
  | .failed message undone =>
    if state.taskType = "free_video_merge" then
      (state.withUndone undone).submit (.failed message) .failing
    else (state.withUndone undone).goto (.quarantining message)
  | .cancelled undone => (state.withUndone undone).submit .cancelled (.cancelling · true)

/-- The transaction of a write: the queue and the rows it changed. -/
def transact (queue : TaskQueue) (now : Nat) (taskId : String) : Write → TaskQueue × Nat
  | .succeeded resultJson => queue.markSucceeded now taskId resultJson
  | .failed message => TaskQueue.markFailed text queue now taskId message
  | .cancelled =>
    let (cancelled, rows, _) := queue.finalizeCancelled now taskId "user"
    (cancelled, rows)

def setWrite (index : Nat) (write : WriteTask) : ProcessTask :=
  { state with writes := state.writes.set index write }

def commit (now index : Nat) : Option ProcessTask :=
  match state.writes[index]? with
  | some ⟨write, .created⟩ =>
    let (queue, rows) := transact text state.queue now state.taskId write
    some ({ state with queue := queue }.setWrite index ⟨write, .committed rows⟩)
  | _ => none

/-- `mark_task_succeeded` runs the compensation when no row was changed. -/
def compensate (write : Write) (rows : Nat) : ProcessTask :=
  if write.isSuccess && (rows = 0) then
    { state with
      result := state.result.map CompensableResult.compensateCancelled }
  else state

def advance (index : Nat) : Option ProcessTask :=
  match state.writes[index]? with
  | some ⟨write, .committed rows⟩ =>
    some ((state.compensate write rows).setWrite index ⟨write, .closing rows⟩)
  | some ⟨write, .closing rows⟩ => some (state.setWrite index ⟨write, .finished rows⟩)
  | _ => none

/-- `_drain_finished_tasks` finds the future done. -/
def drain (now : Nat) : Option ProcessTask :=
  match state.position with
  | .ended cancelled =>
    if state.drained then none
    else if cancelled then
      some { state with
        queue := (state.queue.finalizeCancelled now state.taskId "user").1
        drained := true }
    else some { state with drained := true }
  | _ => none

def next : RaceEvent → Option ProcessTask
  | .cancelTask now target =>
    some { state with
      queue := state.queue.apply text (.cancelTask now target) }
  | .requestCancel =>
    match state.position with
    | .ended _ => some state
    | _ => some { state with cancelRequested := true }
  | .executorEnds outcome =>
    match state.position with
    | .executing => some (state.executorEnds outcome)
    | _ => none
  | .resume => state.resume
  | .timeout =>
    match state.position with
    | .salvaging index => some (state.afterSalvage index)
    | _ => none
  | .commit now index => state.commit text now index
  | .advance index => state.advance index
  | .drain now => state.drain now

/-- The task is running in a queue that the repository can produce. -/
def system : TransitionSystem ProcessTask RaceEvent :=
  { initial := fun state => ∃ ops taskId taskType task,
      (TaskQueue.empty.runAny text ops).find? taskId = some task ∧
      task.status = .running ∧
      state = claimed (TaskQueue.empty.runAny text ops) taskId taskType
    step := fun state event after => state.next text event = some after }

/-- Events of the worker; the others come from outside. -/
def isOwn : RaceEvent → Bool
  | .cancelTask _ _ => false
  | .requestCancel => false
  | _ => true

/-- Nothing is left to do for the worker. -/
def isSettled : Bool :=
  (match state.position with
    | .ended _ => state.drained
    | _ => false) &&
  state.writes.all (fun write => write.progress.isFinished)

/-- Rows `mark_succeeded` has changed. -/
def succeededRows : Nat :=
  ((state.writes.filter (fun write => write.write.isSuccess)).map
    (fun write => write.progress.rows)).sum

end ProcessTask

end MatrixSpooll.Worker
