import MatrixSpooll.Library.Truthy
import MatrixSpooll.Queue.Task

/-!
# The operations of `TaskRepository`

Each operation of `lib/db/repositories/task_repo.py` is one transaction and
becomes one function from queue to queue.  The two cascades recurse along the
dependency edges; they take a recursion budget, and `Queue.Cascade` shows that
the budget the operations pass is never used up.
-/

namespace MatrixSpooll.Queue

open Library

/-- What `enqueue` is called with.  `projectId` is the identity the registry
resolved for `projectName`. -/
structure EnqueueRequest where
  projectId : Option String
  projectName : String
  taskType : String
  mediaType : String
  resourceId : String
  payloadJson : String
  scriptFile : Option String
  resourceType : Option String
  dependencyTaskId : Option String
  providerId : Option String
  deriving DecidableEq, Repr

/-- A request with nothing but the columns every caller sets. -/
def EnqueueRequest.plain (mediaType projectName resourceId : String)
    (dependencyTaskId : Option String) : EnqueueRequest :=
  { projectId := none
    projectName := projectName
    taskType := mediaType
    mediaType := mediaType
    resourceId := resourceId
    payloadJson := "\x7b\x7d"
    scriptFile := none
    resourceType := none
    dependencyTaskId := dependencyTaskId
    providerId := none }

inductive EnqueueResult where
  | queued (taskId : String)
  | deduped (taskId : String) (status : TaskStatus) (existingPayload : String)
  | integrityError
  deriving DecidableEq, Repr

structure CancelAllResult where
  cancelledCount : Nat
  skippedRunningCount : Nat
  deriving DecidableEq, Repr

/-- The three lists `cancel_task` answers with. -/
structure CancelReport where
  cancelled : List Task
  cancelling : List String
  skippedTerminal : List Task
  deriving DecidableEq, Repr

namespace CancelReport

def empty : CancelReport :=
  { cancelled := []
    cancelling := []
    skippedTerminal := [] }

def addCancelled (report : CancelReport) (task : Task) : CancelReport :=
  { report with cancelled := report.cancelled ++ [task] }

def addCancelling (report : CancelReport) (taskId : String) : CancelReport :=
  { report with cancelling := report.cancelling ++ [taskId] }

def addSkipped (report : CancelReport) (task : Task) : CancelReport :=
  { report with skippedTerminal := report.skippedTerminal ++ [task] }

end CancelReport

namespace Task

/-- The columns of `idx_tasks_dedupe_active`. -/
def dedupeKey (task : Task) : String × String × String × String × String :=
  (task.projectId.getD task.projectName, task.taskType, task.resourceId,
    task.scriptFile.getD "", task.resourceType.getD "")

/-- `_active_dedupe_clauses` together with the resource. -/
def matchesActive (request : EnqueueRequest) (task : Task) : Bool :=
  (task.projectId.getD task.projectName = truthyOr request.projectId request.projectName) &&
    (task.taskType = request.taskType) &&
    (task.scriptFile.getD "" = truthyOr request.scriptFile "") &&
    (task.resourceType.getD "" = truthyOr request.resourceType "") &&
    task.status.isActive && (task.resourceId = request.resourceId)

def ofRequest (taskId : String) (now : Nat) (request : EnqueueRequest) : Task :=
  { taskId := taskId
    projectId := request.projectId
    projectName := request.projectName
    taskType := request.taskType
    mediaType := request.mediaType
    resourceId := request.resourceId
    scriptFile := request.scriptFile
    resourceType := request.resourceType
    payloadJson := request.payloadJson
    status := .queued
    resultJson := none
    errorMessage := none
    dependencyTaskId := request.dependencyTaskId
    cancelledBy := none
    providerId := request.providerId
    queuedAt := now
    startedAt := none
    finishedAt := none
    updatedAt := now }

end Task

namespace TaskQueue

variable (text : FailureText) (queue : TaskQueue) (now : Nat)

/-- Depth no chain of rows can exceed. -/
def recursionBudget : Nat :=
  queue.tasks.rows.length + 1

/-- The partial unique index `idx_tasks_dedupe_active` refuses the row. -/
def hasActiveDuplicate (task : Task) : Bool :=
  queue.tasks.rows.any (fun row => row.status.isActive && (row.dedupeKey = task.dedupeKey))

variable (projectName taskId : String)

/-- `enqueue`.  The insertion violates either the primary key or the partial
unique index on active tasks; both end in the same handler. -/
def enqueue (request : EnqueueRequest) : TaskQueue × EnqueueResult :=
  let task := Task.ofRequest taskId now request
  let refused : TaskQueue × EnqueueResult :=
    match ((queue.tasks.select (Task.matchesActive request)).insertionSort
        (fun first second => second.queuedAt ≤ first.queuedAt)).head? with
    | some existing =>
      (queue, .deduped existing.taskId existing.status existing.payloadJson)
    | none => (queue, .integrityError)
  if queue.hasActiveDuplicate task then refused
  else
    match queue.tasks.insert? task with
    | some tasks => ({ queue with tasks := tasks }, .queued taskId)
    | none => refused

/-- The `WHERE` clause of the claim statement, dependency join included. -/
def isClaimable (mediaType : String)
    (poolFullProviders excludeTaskIds : List String) (task : Task) : Bool :=
  let providerFilter :=
    poolFullProviders.isEmpty || (task.taskType = "reference_video") ||
      match task.providerId with
      | none => true
      | some provider => provider ∉ poolFullProviders
  let taskFilter :=
    excludeTaskIds.isEmpty || (task.taskId ∉ excludeTaskIds)
  let dependencyReady :=
    match task.dependencyTaskId with
    | none => true
    | some dependencyId =>
      match queue.find? dependencyId with
      | some dependency => dependency.status = .succeeded
      | none => false
  (task.status = .queued) && (task.mediaType = mediaType) &&
    providerFilter && taskFilter && dependencyReady

def claimNext (mediaType : String) (poolFullProviders excludeTaskIds : List String) :
    TaskQueue × Option Task :=
  let candidates := orderBy Task.queuedAt (queue.tasks.select
    (queue.isClaimable mediaType poolFullProviders excludeTaskIds))
  match candidates.head? with
  | none => (queue, none)
  | some row =>
    let (updated, affected) := queue.updateTask row.taskId
      (fun status => status = .queued) (fun task => { task with
        status := .running
        startedAt := some now
        updatedAt := now }) (fun _ => rfl)
    if affected = 0 then (queue, none)
    else (updated, updated.find? row.taskId)

def markSucceeded (resultJson : String) : TaskQueue × Nat :=
  queue.settleTask taskId (fun status => status = .running) (fun task => { task with
      status := .succeeded
      resultJson := some resultJson
      errorMessage := none
      finishedAt := some now
      updatedAt := now }) (fun _ => rfl) .succeeded

/-- The update `_mark_failed_running` and `_mark_failed_queued_dep` share; they
differ in the status they require. -/
def markFailedFrom (source : TaskStatus) (text : FailureText)
    (queue : TaskQueue) (now : Nat) (taskId errorMessage : String) :
    TaskQueue × Nat :=
  queue.settleTask taskId (fun status => status = source) (fun task => { task with
      status := .failed
      errorMessage := some (text.boundReason errorMessage maxErrorMessageLen)
      finishedAt := some now
      updatedAt := now }) (fun _ => rfl) .failed

def markFailedRunning (errorMessage : String) : TaskQueue × Nat :=
  markFailedFrom .running text queue now taskId errorMessage

def markFailedQueuedDep (errorMessage : String) : TaskQueue × Nat :=
  markFailedFrom .queued text queue now taskId errorMessage

/-- Identifiers of the queued rows that depend on `taskId`. -/
def queuedDependentIds : List String :=
  (orderBy Task.queuedAt (queue.tasks.select (fun task =>
    (task.dependencyTaskId = some taskId) && (task.status = .queued)))).map Task.taskId

/-- One turn of the loop in `_cascade_failed_queued`; `recur` is the cascade
below the dependent. -/
def failDependent (recur : TaskQueue → String → TaskQueue × Nat)
    (taskId errorMessage : String) (state : TaskQueue × Nat)
    (dependentId : String) : TaskQueue × Nat :=
  let (queue, cascaded) := state
  let blockedMessage := text.encodeBoundedCascadeFailure taskId errorMessage
  let (failed, affected) :=
    markFailedQueuedDep text queue now dependentId blockedMessage
  if affected = 0 then (failed, cascaded)
  else
    let (below, more) := recur failed dependentId
    (below, cascaded + affected + more)

def cascadeFailedQueued (text : FailureText) (now : Nat) (errorMessage : String) :
    Nat → TaskQueue → String → TaskQueue × Nat
  | 0, queue, _ => (queue, 0)
  | budget + 1, queue, taskId =>
    (queue.queuedDependentIds taskId).foldl (failDependent text now
        (cascadeFailedQueued text now errorMessage budget)
        taskId errorMessage) (queue, 0)

def markFailed (errorMessage : String) : TaskQueue × Nat :=
  let (failed, affected) :=
    markFailedRunning text queue now taskId errorMessage
  if affected = 0 then (queue, 0)
  else
    ((cascadeFailedQueued text now errorMessage queue.recursionBudget failed taskId).1, affected)

def markCancelling (cancelledBy : String) : TaskQueue × Nat :=
  queue.updateTask taskId (fun status => status = .running) (fun task => { task with
      status := .cancelling
      cancelledBy := some cancelledBy
      updatedAt := now }) (fun _ => rfl)

/-- `_dispatch_cancel`.  `cancel` is the cancellation of a queued task with its
cascade; the status is the one the row has when its turn comes. -/
def dispatchCancel (cancel : TaskQueue → CancelReport → String → TaskQueue × CancelReport)
    (cancelledBy : String) (state : TaskQueue × CancelReport)
    (taskId : String) : TaskQueue × CancelReport :=
  let (queue, report) := state
  match queue.find? taskId with
  | none => (queue, report)
  | some task =>
    match task.status with
    | .queued => cancel queue report taskId
    | .running =>
      let (marked, affected) := queue.markCancelling now taskId cancelledBy
      if affected = 0 then
        -- the row changed under the update: report what it is now
        match marked.find? taskId with
        | some current =>
          if current.status = .cancelling then
            (marked, report.addCancelling taskId)
          else if current.status.isTerminal then
            (marked, report.addSkipped current)
          else (marked, report)
        | none => (marked, report)
      else (marked, report.addCancelling taskId)
    | .cancelling => (queue, report)
    | .succeeded | .failed | .cancelled => (queue, report.addSkipped task)

/-- Identifiers of all rows that depend on `taskId`. -/
def dependentIds : List String :=
  (orderBy Task.queuedAt (queue.tasks.select (fun task =>
    (task.dependencyTaskId = some taskId)))).map Task.taskId

/-- The guarded update of `_mark_cancelled` with its terminal event. -/
def settleCancelled (cancelledBy : String) : TaskQueue × Nat :=
  queue.settleTask taskId TaskStatus.isActive (fun task => { task with
      status := .cancelled
      cancelledBy := some (task.cancelledBy.getD cancelledBy)
      finishedAt := some now
      updatedAt := now }) (fun _ => rfl) .cancelled

/-- `_mark_cancelled`, with `_cascade_cancel_dependents` as its last part. -/
def markCancelled (now : Nat) (cascade : Bool) : Nat → String → TaskQueue → CancelReport → String →
      TaskQueue × CancelReport × Option Task
  | 0, _, queue, report, _ => (queue, report, none)
  | budget + 1, cancelledBy, queue, report, taskId =>
    let (settled, affected) := queue.settleCancelled now taskId cancelledBy
    if affected = 0 then (queue, report, none)
    else
      match settled.find? taskId with
      | none => (settled, report, none)
      | some task =>
        let recorded := report.addCancelled task
        if cascade then
          let below := fun queue report dependentId =>
            let (next, extended, _) := markCancelled now cascade budget
              "cascade" queue report dependentId
            (next, extended)
          let (cascaded, extended) :=
            (settled.dependentIds taskId).foldl
              (dispatchCancel now below "cascade") (settled, recorded)
          (cascaded, extended, some task)
        else (settled, recorded, some task)

/-- `cancel_task`; `none` is the `ValueError` of an unknown task. -/
def cancelTask : Option (TaskQueue × CancelReport) :=
  match queue.find? taskId with
  | none => none
  | some _ =>
    let cancel := fun current report id =>
      let (next, extended, _) := markCancelled now true
        queue.recursionBudget "user" current report id
      (next, extended)
    some (dispatchCancel now cancel "user" (queue, .empty) taskId)

/-- `finalize_cancelled`: rows changed and the running dependents that now
have to be signalled. -/
def finalizeCancelled (cancelledBy : String) : TaskQueue × Nat × List String :=
  let (cancelled, report, data) := markCancelled now true
    queue.recursionBudget cancelledBy queue .empty taskId
  (cancelled, if data.isSome then 1 else 0, report.cancelling)

/-- The project filter of `cancel_all_queued`. -/
def inProject (projectId : Option String) (task : Task) : Bool :=
  if isTruthy projectId then task.projectId = projectId
  else task.projectName = projectName

/-- Rows `cancel_all_queued` selects and updates. -/
def bulkCancelled (projectId : Option String) (task : Task) : Bool :=
  inProject projectName projectId task && (task.status = .queued)

/-- The assignment and the terminal event of `cancel_all_queued`. -/
def bulkCancel (task : Task) : Task :=
  { task with
    status := .cancelled
    cancelledBy := some "user"
    finishedAt := some now
    updatedAt := now }

def bulkCancelEvent (task : Task) : TerminalEvent :=
  { taskId := task.taskId
    projectName := projectName
    status := .cancelled
    taskType := task.taskType }

def cancelAllQueued (projectId : Option String) : TaskQueue × CancelAllResult :=
  let filter := bulkCancelled projectName projectId
  let queuedTasks := queue.tasks.select filter
  let cancelledCount := queue.tasks.rowcount filter
  let updated : TaskQueue := { queue with
    tasks := queue.tasks.update filter (bulkCancel now) (fun _ => rfl) }
  let taskIds := queuedTasks.map Task.taskId
  let refreshed := updated.tasks.select (fun task =>
    (task.taskId ∈ taskIds) && (task.status = .cancelled))
  let recorded := refreshed.foldl (fun current task =>
    current.recordTerminalEvent (bulkCancelEvent projectName task)) updated
  (recorded,
    { cancelledCount := cancelledCount
      skippedRunningCount := queuedTasks.length - cancelledCount })

/-- The rows `requeue_running` picks; the limit is clamped to `1 .. 5000`. -/
def requeuedIds (limit : Int) : List String :=
  let clamped := (max 1 (min 5000 limit)).toNat
  ((orderBy Task.updatedAt (queue.tasks.select (fun task =>
    (task.status = .running)))).take clamped).map Task.taskId

def requeueRunning (limit : Int) : TaskQueue × Nat :=
  let taskIds := queue.requeuedIds limit
  if taskIds.isEmpty then (queue, 0)
  else
    let updated : TaskQueue := { queue with
      tasks := queue.tasks.update (fun task =>
          (task.taskId ∈ taskIds) && (task.status = .running))
        (fun task => { task with
          status := .queued
          startedAt := none
          finishedAt := none
          updatedAt := now
          resultJson := none
          errorMessage := none }) (fun _ => rfl) }
    (updated, updated.tasks.rowcount (fun task =>
      (task.taskId ∈ taskIds) && (task.status = .queued)))

/-- `GenerationWorker._requeue_single_task`. -/
def requeueSingleTask : TaskQueue × Nat :=
  queue.updateTask taskId (fun status => status = .running) (fun task => { task with
      status := .queued
      startedAt := none
      updatedAt := now }) (fun _ => rfl)

/-- `persist_execution_provider_id`, without a guard on the status. -/
def persistExecutionProviderId (providerId : String) : TaskQueue :=
  (queue.updateTask taskId (fun _ => true) (fun task => { task with
      providerId := some providerId
      updatedAt := now }) (fun _ => rfl)).1

end TaskQueue

/-- The public operations, with the clock reading, the identifier `uuid4` drew
and the registry's answer as arguments. -/
inductive QueueOp where
  | enqueue (now : Nat) (taskId : String) (request : EnqueueRequest)
  | claimNext (now : Nat) (mediaType : String)
      (poolFullProviders excludeTaskIds : List String)
  | markSucceeded (now : Nat) (taskId resultJson : String)
  | markFailed (now : Nat) (taskId errorMessage : String)
  | cancelTask (now : Nat) (taskId : String)
  | finalizeCancelled (now : Nat) (taskId cancelledBy : String)
  | cancelAllQueued (now : Nat) (projectName : String)
      (projectId : Option String)
  | requeueRunning (now : Nat) (limit : Int)
  deriving DecidableEq, Repr

/-- Every mutating method, the internal ones included. -/
inductive RepositoryOp where
  | call (op : QueueOp)
  | markCancelling (now : Nat) (taskId cancelledBy : String)
  | markCancelled (now : Nat) (taskId cancelledBy : String) (cascade : Bool)
  | requeueSingleTask (now : Nat) (taskId : String)
  | persistExecutionProviderId (now : Nat) (taskId providerId : String)
  deriving DecidableEq, Repr

namespace TaskQueue

variable (text : FailureText) (queue : TaskQueue)

/-- The queue after a public operation; one that raises changes nothing. -/
def apply : QueueOp → TaskQueue
  | .enqueue now taskId request => (queue.enqueue now taskId request).1
  | .claimNext now mediaType poolFullProviders excludeTaskIds =>
    (queue.claimNext now mediaType poolFullProviders excludeTaskIds).1
  | .markSucceeded now taskId resultJson => (queue.markSucceeded now taskId resultJson).1
  | .markFailed now taskId errorMessage => (markFailed text queue now taskId errorMessage).1
  | .cancelTask now taskId =>
    match queue.cancelTask now taskId with
    | some (cancelled, _) => cancelled
    | none => queue
  | .finalizeCancelled now taskId cancelledBy =>
    (queue.finalizeCancelled now taskId cancelledBy).1
  | .cancelAllQueued now projectName projectId =>
    (queue.cancelAllQueued now projectName projectId).1
  | .requeueRunning now limit => (queue.requeueRunning now limit).1

def applyAny : RepositoryOp → TaskQueue
  | .call op => queue.apply text op
  | .markCancelling now taskId cancelledBy =>
    (queue.markCancelling now taskId cancelledBy).1
  | .markCancelled now taskId cancelledBy cascade =>
    (markCancelled now cascade queue.recursionBudget cancelledBy queue .empty taskId).1
  | .requeueSingleTask now taskId => (queue.requeueSingleTask now taskId).1
  | .persistExecutionProviderId now taskId providerId =>
    queue.persistExecutionProviderId now taskId providerId

/-- The queue after a sequence of operations. -/
def runAny (ops : List RepositoryOp) : TaskQueue :=
  ops.foldl (applyAny text) queue

end TaskQueue

end MatrixSpooll.Queue
