import MatrixSpooll.Queue.Refinement

/-!
# Queued tasks behind a dead dependency

A queued task whose dependency failed or was cancelled can never be claimed.
The cascades remove such tasks, but two operations run no cascade: `enqueue`
does not look at the status of the dependency it is given, and
`cancel_all_queued` cancels rows of one project without their dependents in
another.  `Foresees` excludes these two situations; along every run that does,
no queued task is blocked.
-/

namespace MatrixSpooll.Queue

open Library

namespace TaskQueue

/-- The operations of a queue that starts empty. -/
def system (text : FailureText) : TransitionSystem TaskQueue QueueOp :=
  .ofFunction empty (fun queue op => some (queue.apply text op))

/-- A task that gets a row of its own does not name a dependency that is
already failed or cancelled, and a bulk cancellation leaves out no queued dependent of a task it
cancels. -/
def Foresees (queue : TaskQueue) : QueueOp → Prop
  | .enqueue now taskId request =>
    queue.hasActiveDuplicate (.ofRequest taskId now request) = false →
    ∀ parent dependency, request.dependencyTaskId = some parent →
    queue.find? parent = some dependency →
    Board.blocks dependency.status = false
  | .cancelAllQueued _ projectName projectId => ∀ child task parent dependency,
      queue.find? child = some task → task.status = .queued →
      task.dependencyTaskId = some parent →
      queue.find? parent = some dependency → dependency.status = .queued →
      inProject projectName projectId dependency = true →
      inProject projectName projectId task = true
  | _ => True

variable {queue : TaskQueue} {now : Nat}

section

variable (unblocked : queue.board.Unblocked)
include unblocked

theorem enqueue_unblocked {taskId : String} {request : EnqueueRequest}
    (foresees : queue.Foresees (.enqueue now taskId request)) :
    (queue.enqueue now taskId request).1.board.Unblocked := by
  rcases enqueue_cases queue now taskId request with same | ⟨fresh, _, placed⟩
  · rw [same]
    exact unblocked
  · rw [placed]
    apply unblocked.place
    · intro blocked
      cases blocked
    · intro _ parent parentJob named _ parentRow blocked
      obtain ⟨dependency, found, sameStatus, _⟩ := find_of_board_job parentRow
      have alive := foresees fresh parent dependency named found
      rw [sameStatus, blocked] at alive
      cases alive

theorem claimNext_unblocked (now : Nat) (mediaType : String)
    (poolFullProviders excludeTaskIds : List String) :
    (queue.claimNext now mediaType poolFullProviders excludeTaskIds).1.board.Unblocked := by
  rcases claimNext_cases queue now mediaType poolFullProviders excludeTaskIds
    with same | ⟨row, _, _, _, moved⟩
  · rw [same]
    exact unblocked
  · rw [moved]
    apply unblocked.place
    · intro blocked
      cases blocked
    · intro queued
      cases queued

theorem markSucceeded_unblocked (now : Nat) (taskId resultJson : String) :
    (queue.markSucceeded now taskId resultJson).1.board.Unblocked := by
  rcases markSucceeded_cases queue now taskId resultJson with
    ⟨_, same, _⟩ | ⟨_, before, settled⟩
  · rw [same]
    exact unblocked
  · rw [settled.boardEq]
    apply unblocked.place
    · intro blocked
      cases blocked
    · intro queued
      cases queued

theorem markFailed_unblocked (text : FailureText) (now : Nat) (taskId errorMessage : String) :
    (markFailed text queue now taskId errorMessage).1.board.Unblocked := by
  simp only [markFailed]
  split
  · exact unblocked
  · rename_i nonzero
    rcases markFailedFrom_cases .running text queue now taskId errorMessage
      rfl with ⟨zero, _, _⟩ | ⟨_, before, settled⟩
    · exact absurd zero nonzero
    · apply cascadeFailedQueued_quenches
      · exact Nat.lt_trans settled.activeLt queue.activeCount_lt_recursionBudget
      · exact settled.unblockedExcept rfl unblocked

theorem cancelTask_unblocked {cancelled : TaskQueue} {taskId : String} {report : CancelReport}
    (result : queue.cancelTask now taskId = some (cancelled, report)) :
    cancelled.board.Unblocked := by
  rw [cancelTask_eq result]
  have retires := cancelWith_retires now true queue.recursionBudget "user"
  apply (dispatchCancel_quenched now retires "user" (queue, .empty) taskId _).unblocked unblocked
  intro task found queued
  have active : task.status.isActive = true := by
    rw [queued]
    rfl
  refine { retires := retires _ _ _, unblocked := ?_, gone := ?_ }
  · exact markCancelled_quenches now queue.recursionBudget "user" queue .empty
      taskId _ queue.activeCount_lt_recursionBudget
  · exact markCancelled_gone now true queue.tasks.rows.length "user" queue
      .empty taskId found active

theorem cancelAllQueued_unblocked {projectName : String} {projectId : Option String}
    (foresees : queue.Foresees (.cancelAllQueued now projectName projectId)) :
    (queue.cancelAllQueued now projectName projectId).1.board.Unblocked := by
  rw [board_cancelAllQueued]
  apply unblocked.placeAll
  · intro _ child job parent childRow queued named parentIn
    obtain ⟨task, found, sameStatus, sameDependency⟩ := find_of_board_job childRow
    obtain ⟨dependency, parentFound, parentQueued, parentSelected⟩ :=
      bulkCancelledIds_queued parentIn
    have selected := foresees child task parent dependency found
      (sameStatus.trans queued) (sameDependency.trans named) parentFound
      parentQueued parentSelected
    have key : task.taskId = child := KeyedTable.find?_key found
    rw [← key]
    apply (KeyedTable.key_mem_select_iff (KeyedTable.find?_mem found)).mpr
    simp [bulkCancelled, selected, sameStatus, queued]
  · intro impossible
    cases impossible

theorem requeueRunning_unblocked (inOrder : queue.board.InOrder) (now : Nat)
    (limit : Int) : (queue.requeueRunning now limit).1.board.Unblocked := by
  rw [board_requeueRunning]
  apply unblocked.placeAll
  · intro impossible
    cases impossible
  · intro _ child childIn job parent parentJob childRow named parentRow
    obtain ⟨task, found, running⟩ := requeuedIds_running childIn
    rw [board_job_of_find found] at childRow
    cases childRow
    have ready := inOrder child _ (board_job_of_find found) (by
      rw [running]
      rfl)
    obtain ⟨succeededJob, row, succeeded⟩ := ready parent named
    rw [parentRow] at row
    cases row
    rw [succeeded]
    rfl

end

/-- What is carried along a run. -/
structure Clear (queue : TaskQueue) : Prop where
  unblocked : queue.board.Unblocked
  inOrder : queue.board.InOrder

theorem apply_clear (text : FailureText) {op : QueueOp}
    (clear : queue.Clear) (foresees : queue.Foresees op) : (queue.apply text op).Clear := by
  refine
    { unblocked := ?_
      inOrder := Board.Steps.inOrder (apply_refines text queue op)
        clear.inOrder }
  have unblocked := clear.unblocked
  cases op with
  | enqueue now taskId request => exact enqueue_unblocked unblocked foresees
  | claimNext now mediaType poolFullProviders excludeTaskIds =>
    exact claimNext_unblocked unblocked now mediaType poolFullProviders excludeTaskIds
  | markSucceeded now taskId resultJson =>
    exact markSucceeded_unblocked unblocked now taskId resultJson
  | markFailed now taskId errorMessage =>
    exact markFailed_unblocked unblocked text now taskId errorMessage
  | cancelTask now taskId =>
    unfold apply
    simp only
    split
    · rename_i result
      exact cancelTask_unblocked unblocked result
    · exact unblocked
  | finalizeCancelled now taskId cancelledBy =>
    exact markCancelled_quenches now queue.recursionBudget cancelledBy queue
      .empty taskId _ queue.activeCount_lt_recursionBudget unblocked
  | cancelAllQueued now projectName projectId =>
    exact cancelAllQueued_unblocked unblocked foresees
  | requeueRunning now limit =>
    exact requeueRunning_unblocked unblocked clear.inOrder now limit

theorem clear_invariant (text : FailureText) :
    ((system text).restrict Foresees).Invariant Clear := by
  refine { initially := ?_, preserved := ?_ }
  · intro queue initially
    rw [show queue = empty from initially]
    refine { unblocked := ?_, inOrder := Board.inOrder_empty }
    intro child job parent parentJob childRow
    cases childRow
  · intro queue op next clear step
    obtain ⟨foresees, result⟩ := step
    rw [← Option.some.inj result]
    exact apply_clear text clear foresees

/-- Along every run whose operations foresee their dependents, no queued task
waits for a failed or cancelled one. -/
theorem queued_task_dependency_alive (text : FailureText) {queue : TaskQueue}
    (reachable : ((system text).restrict Foresees).Reachable queue)
    {child parent : String} {task dependency : Task}
    (found : queue.find? child = some task) (queued : task.status = .queued)
    (named : task.dependencyTaskId = some parent)
    (parentFound : queue.find? parent = some dependency) :
    dependency.status ≠ .failed ∧ dependency.status ≠ .cancelled := by
  have clear := (clear_invariant text).reachable reachable
  have alive : Board.blocks dependency.status ≠ true := by
    intro blocked
    exact clear.unblocked child _ parent _ (board_job_of_find found) queued
      named (board_job_of_find parentFound) blocked
  constructor
  · intro failed
    rw [failed] at alive
    exact alive rfl
  · intro cancelled
    rw [cancelled] at alive
    exact alive rfl

/-- A parent and a child of one project, both still queued. -/
theorem queued_child_parent_alive : ∃ queue dependency,
      ((system .verbatim).restrict Foresees).Reachable queue ∧
      queue.find? "parent" = some dependency ∧
      dependency.status ≠ .failed ∧ dependency.status ≠ .cancelled := by
  have reachable : ((system .verbatim).restrict Foresees).Reachable ((empty.apply .verbatim
        (.enqueue 1 "parent" (.plain "image" "project" "first" none))).apply .verbatim
        (.enqueue 2 "child" (.plain "image" "project" "second" (some "parent")))) := by
    refine ⟨empty, _, rfl, .cons ⟨?_, rfl⟩ (.cons ⟨?_, rfl⟩ (.nil _))⟩
    · intro _ parent dependency named
      cases named
    · intro _ parent dependency named found
      cases named
      cases found
      rfl
  exact ⟨_, _, reachable, rfl, queued_task_dependency_alive .verbatim reachable
      (show TaskQueue.find? _ "child" = some _ from rfl) rfl rfl rfl⟩

theorem run_foldl (text : FailureText) (ops : List QueueOp) (queue : TaskQueue) :
    (system text).Run queue ops (ops.foldl (apply text) queue) := by
  induction ops generalizing queue with
  | nil => exact .nil queue
  | cons op ops induction => exact .cons rfl (induction _)

/-- A queued task behind a cancelled one, once enqueued after the cancellation
and once left behind by the bulk cancellation of another project. -/
theorem queued_task_stuck_reachable : (∃ queue task dependency, (system .verbatim).Reachable queue ∧
      queue.find? "child" = some task ∧ task.status = .queued ∧
      task.dependencyTaskId = some "parent" ∧
      queue.find? "parent" = some dependency ∧
      dependency.status = .cancelled ∧ dependency.projectName = "project" ∧
      task.projectName = "project") ∧
    (∃ queue task dependency, (system .verbatim).Reachable queue ∧
      queue.find? "child" = some task ∧ task.status = .queued ∧
      task.dependencyTaskId = some "parent" ∧
      queue.find? "parent" = some dependency ∧
      dependency.status = .cancelled ∧ dependency.projectName = "project" ∧
      task.projectName = "other") := by
  constructor
  · exact ⟨_, _, _, ⟨empty, _, rfl, run_foldl .verbatim
      [.enqueue 1 "parent" (.plain "image" "project" "first" none), .cancelTask 2 "parent",
        .enqueue 3 "child" (.plain "image" "project" "second" (some "parent"))]
      empty⟩, rfl, rfl, rfl, rfl, rfl, rfl, rfl⟩
  · exact ⟨_, _, _, ⟨empty, _, rfl, run_foldl .verbatim
      [.enqueue 1 "parent" (.plain "image" "project" "first" none),
        .enqueue 2 "child" (.plain "image" "other" "second" (some "parent")),
        .cancelAllQueued 3 "project" none]
      empty⟩, rfl, rfl, rfl, rfl, rfl, rfl, rfl⟩

end TaskQueue

end MatrixSpooll.Queue
