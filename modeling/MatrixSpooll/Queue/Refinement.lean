import MatrixSpooll.Queue.Cascade

/-!
# The repository implements the board

Every operation of the repository is a finite sequence of board steps.  The
two results about whole runs follow from the board: settled tasks stay settled
and have exactly one terminal event, and no task is started before its
dependency succeeded.
-/

namespace MatrixSpooll.Queue

open Library List Board

namespace TaskQueue

open KeyedTable

/-- The second queue is reached from the first by steps of the board. -/
def Refines (queue next : TaskQueue) : Prop :=
  Steps queue.board next.board

theorem Refines.refl (queue : TaskQueue) : Refines queue queue :=
  Relation.ReflTransGen.refl

theorem Refines.trans {first second third : TaskQueue}
    (earlier : Refines first second) (later : Refines second third) :
    Refines first third :=
  Relation.ReflTransGen.trans earlier later

/-! ## Single rows -/

variable {queue : TaskQueue} {task : Task}

theorem board_insert {tasks : TaskTable} (queued : task.status = .queued)
    (inserted : queue.tasks.insert? task = some tasks) :
    { queue with tasks := tasks }.board =
      queue.board.place task.taskId ⟨.queued, task.dependencyTaskId⟩ := by
  apply Board.ext
  · funext wanted
    have lookup := find?_insert inserted wanted
    by_cases same : wanted = task.taskId
    · subst same
      rw [if_pos rfl] at lookup
      rw [place_job_self, ← queued]
      exact board_job_of_find lookup
    · rw [if_neg (Ne.symm same)] at lookup
      rw [place_job_other _ _ same]
      simp only [board, find?, lookup]
  · simp [board, place, entry, TaskStatus.isTerminal]

section

variable (queue : TaskQueue) (now : Nat) (taskId : String) (request : EnqueueRequest)

theorem enqueue_cases : (queue.enqueue now taskId request).1 = queue ∨
      queue.hasActiveDuplicate (.ofRequest taskId now request) = false ∧
      queue.board.job taskId = none ∧
      (queue.enqueue now taskId request).1.board =
        queue.board.place taskId ⟨.queued, request.dependencyTaskId⟩ := by
  unfold enqueue
  simp only
  split
  · left
    split <;> rfl
  · split
    · rename_i tasks inserted
      right
      have missing : queue.find? taskId = none := insert?_fresh inserted
      refine ⟨Bool.eq_false_iff.mpr (by assumption), by simp [board, missing], ?_⟩
      exact board_insert rfl inserted
    · left
      split <;> rfl

theorem enqueue_refines : Refines queue (queue.enqueue now taskId request).1 := by
  rcases enqueue_cases queue now taskId request with same | ⟨_, absent, placed⟩
  · rw [same]
    exact .refl queue
  · unfold Refines
    rw [placed]
    exact Relation.ReflTransGen.single (.submit absent)

end

/-- The join of the claim statement: the dependency is there and succeeded. -/
theorem isClaimable_ready {mediaType : String} {poolFullProviders excludeTaskIds : List String}
    (claimable : queue.isClaimable mediaType poolFullProviders excludeTaskIds task = true) :
    task.status = .queued ∧ queue.board.Ready task.dependencyTaskId := by
  simp only [isClaimable, Bool.and_eq_true, decide_eq_true_eq] at claimable
  obtain ⟨⟨⟨⟨queued, _⟩, _⟩, _⟩, dependencyReady⟩ := claimable
  refine ⟨queued, ?_⟩
  intro parent named
  simp only [named] at dependencyReady
  cases row : queue.find? parent with
  | none => simp [row] at dependencyReady
  | some dependency =>
    simp only [row, decide_eq_true_eq] at dependencyReady
    exact ⟨_, board_job_of_find row, dependencyReady⟩

section

variable (queue : TaskQueue) (now : Nat) (mediaType : String)
  (poolFullProviders excludeTaskIds : List String)

theorem claimNext_cases :
    (queue.claimNext now mediaType poolFullProviders excludeTaskIds).1 = queue ∨
      ∃ row, queue.find? row.taskId = some row ∧ row.status = .queued ∧
        queue.board.Ready row.dependencyTaskId ∧
        (queue.claimNext now mediaType poolFullProviders excludeTaskIds).1.board =
          queue.board.place row.taskId ⟨.running, row.dependencyTaskId⟩ := by
  unfold claimNext
  simp only
  split
  · exact .inl rfl
  · rename_i row head
    have listed := mem_orderBy.mp (mem_of_head? head)
    obtain ⟨member, claimable⟩ := mem_filter.mp listed
    obtain ⟨queued, ready⟩ := isClaimable_ready claimable
    have found : queue.find? row.taskId = some row := find?_of_mem member
    rcases updateTask_cases queue row.taskId (fun status => status = .queued)
      (fun task => { task with
        status := .running
        startedAt := some now
        updatedAt := now }) (fun _ => rfl) .running rfl (fun _ => rfl)
      (fun _ => rfl) with
      ⟨zero, _, _⟩ | ⟨nonzero, before, beforeFound, _, moved⟩
    · left
      rw [if_pos zero]
    · right
      rw [found] at beforeFound
      cases beforeFound
      refine ⟨row, found, queued, ready, ?_⟩
      rw [if_neg nonzero]
      exact moved

theorem claimNext_refines : Refines queue
      (queue.claimNext now mediaType poolFullProviders excludeTaskIds).1 := by
  rcases claimNext_cases queue now mediaType poolFullProviders excludeTaskIds
    with same | ⟨row, found, queued, ready, moved⟩
  · rw [same]
    exact .refl queue
  · unfold Refines
    rw [moved]
    apply Relation.ReflTransGen.single
    apply Step.move (board_job_of_find found)
    · rw [queued]
      rfl
    · intro _
      exact ready

theorem head_orderBy {column : Task → Nat} {rows : List Task} {first : Task}
    (head : (orderBy column rows).head? = some first) :
    ∀ row ∈ rows, column first ≤ column row := by
  have total : Std.Total (fun first second : Task => column first ≤ column second) :=
    ⟨fun first second => Nat.le_total (column first) (column second)⟩
  have trans : IsTrans Task (fun first second => column first ≤ column second) :=
    ⟨fun _ _ _ => Nat.le_trans⟩
  have ordered := pairwise_insertionSort (fun first second : Task => column first ≤ column second)
    rows
  obtain ⟨rest, isOrdered⟩ := head?_eq_some_iff.mp head
  rw [show rows.insertionSort _ = first :: rest from isOrdered, pairwise_cons] at ordered
  intro row member
  rw [← @mem_orderBy column, isOrdered, mem_cons] at member
  rcases member with same | later
  · rw [same]
  · exact ordered.1 row later

/-- `claim_next` finds a task whenever one can be claimed.  It takes one that
was queued first and changes nothing else. -/
theorem claimNext_takes_oldest :
    match queue.claimNext now mediaType poolFullProviders excludeTaskIds with
    | (next, none) => next = queue ∧ ∀ row ∈ queue.tasks.rows,
        queue.isClaimable mediaType poolFullProviders excludeTaskIds row = false
    | (next, some task) => ∃ row ∈ queue.tasks.rows,
        queue.isClaimable mediaType poolFullProviders excludeTaskIds row = true ∧
        (∀ other ∈ queue.tasks.rows,
          queue.isClaimable mediaType poolFullProviders excludeTaskIds other = true →
          row.queuedAt ≤ other.queuedAt) ∧
        task = { row with status := .running, startedAt := some now, updatedAt := now } ∧
        next.find? row.taskId = some task ∧
        (∀ other, other ≠ row.taskId → next.find? other = queue.find? other) ∧
        next.terminalEvents = queue.terminalEvents := by
  unfold claimNext
  simp only
  cases head : (orderBy Task.queuedAt (queue.tasks.select
    (queue.isClaimable mediaType poolFullProviders excludeTaskIds))).head? with
  | none =>
    refine ⟨rfl, ?_⟩
    intro row member
    by_contra claimable
    have listed : row ∈ orderBy Task.queuedAt (queue.tasks.select
        (queue.isClaimable mediaType poolFullProviders excludeTaskIds)) :=
      mem_orderBy.mpr (mem_filter.mpr ⟨member, by simpa using claimable⟩)
    rw [head?_eq_none_iff.mp head] at listed
    cases listed
  | some row =>
    obtain ⟨member, claimable⟩ := mem_filter.mp (mem_orderBy.mp (mem_of_head? head))
    have found : queue.find? row.taskId = some row := find?_of_mem member
    have updated : ∀ assign keyFixed, (queue.updateTask row.taskId
          (fun status => status = .queued) assign keyFixed).2 ≠ 0 ∧
        (queue.updateTask row.taskId (fun status => status = .queued) assign keyFixed).1.find?
          row.taskId = some (assign row) := by
      intro assign keyFixed
      have queued := (isClaimable_ready claimable).1
      refine ⟨fun zero => ?_, find_updateTask_self found (by simpa using queued)⟩
      simpa [queued] using updateTask_rowcount_zero zero found
    simp only [if_neg (updated _ _).1, (updated _ _).2]
    refine ⟨row, member, claimable, ?_, rfl, (updated _ _).2,
      fun other different => find_updateTask_other different, rfl⟩
    intro other isRow alsoClaimable
    exact head_orderBy head other (mem_filter.mpr ⟨isRow, alsoClaimable⟩)

end

/-! ## Bulk updates -/

variable {next : TaskQueue}

/-- An `UPDATE` of all rows a filter selects, as a change of the board. -/
theorem board_bulk {filter : Task → Bool} {assign : Task → Task}
    {ids : List String} {after : TaskStatus} (keyFixed : ∀ task, (assign task).taskId = task.taskId)
    (updated : next.tasks = queue.tasks.update filter assign keyFixed)
    (logged : next.board.log = queue.board.log ++ ids.flatMap (fun id => entry id after))
    (assigned : ∀ task, (assign task).status = after) (sameDependency : ∀ task,
      (assign task).dependencyTaskId = task.dependencyTaskId)
    (listed : ∀ task ∈ queue.tasks.rows, task.taskId ∈ ids ↔ filter task = true) :
    next.board = queue.board.placeAll ids after := by
  apply Board.ext
  · funext wanted
    have lookup : next.find? wanted = (queue.find? wanted).map
        (fun task => if filter task then assign task else task) := by
      unfold find?
      rw [updated]
      exact find?_update queue.tasks filter assign keyFixed wanted
    simp only [placeAll, board, lookup]
    cases row : queue.find? wanted with
    | none => simp
    | some task =>
      have key : task.taskId = wanted := find?_key row
      have chosen := listed task (find?_mem row)
      rw [key] at chosen
      by_cases holds : filter task = true
      · simp [chosen.mpr holds, holds, assigned, sameDependency]
      · have absent : wanted ∉ ids := fun member => holds (chosen.mp member)
        simp [absent, holds]
  · exact logged

private theorem foldl_recordTerminalEvent (event : Task → TerminalEvent)
    (terminal : ∀ task, (event task).status.isTerminal = true)
    (rows : List Task) (queue : TaskQueue) :
    rows.foldl (fun current task => current.recordTerminalEvent (event task)) queue =
      { queue with
        terminalEvents := queue.terminalEvents ++ rows.map event } := by
  induction rows generalizing queue with
  | nil => simp
  | cons task rows induction =>
    rw [foldl_cons, induction]
    simp [recordTerminalEvent, terminal]

/-- The rows `cancel_all_queued` cancels. -/
def bulkCancelledIds (queue : TaskQueue) (projectName : String)
    (projectId : Option String) : List String :=
  (queue.tasks.select (bulkCancelled projectName projectId)).map Task.taskId

private theorem map_bulkCancelEvent (projectName : String) (rows : List Task) :
    (rows.map (bulkCancelEvent projectName)).map (fun event => (event.taskId, event.status)) =
      (rows.map Task.taskId).flatMap (fun id => entry id .cancelled) := by
  induction rows with
  | nil => rfl
  | cons task rows induction =>
    simp only [map_cons, flatMap_cons, induction]
    rfl

theorem board_cancelAllQueued (queue : TaskQueue) (now : Nat)
    (projectName : String) (projectId : Option String) :
    (queue.cancelAllQueued now projectName projectId).1.board =
      queue.board.placeAll (queue.bulkCancelledIds projectName projectId) .cancelled := by
  unfold cancelAllQueued
  simp only
  rw [foldl_recordTerminalEvent (bulkCancelEvent projectName) (fun _ => rfl)]
  refine board_bulk ?_ rfl ?_ (fun _ => rfl) (fun _ => rfl) ?_
  · exact fun _ => rfl
  · -- the rows read back after the update are the ones selected before it
    have readBack := map_key_select_update queue.tasks (bulkCancelled projectName projectId)
      (fun task => task.status = .cancelled) (bulkCancel now) (fun _ => rfl) (fun _ => rfl)
    simp only [board, map_append, map_bulkCancelEvent]
    rw [readBack]
    rfl
  · intro task member
    exact key_mem_select_iff member

theorem bulkCancelledIds_queued {projectName : String} {projectId : Option String} {id : String}
    (listed : id ∈ queue.bulkCancelledIds projectName projectId) :
    ∃ task, queue.find? id = some task ∧ task.status = .queued ∧
      inProject projectName projectId task = true := by
  obtain ⟨task, selected, key⟩ := mem_map.mp listed
  obtain ⟨member, holds⟩ := mem_filter.mp selected
  simp only [bulkCancelled, Bool.and_eq_true, decide_eq_true_eq] at holds
  exact ⟨task, find?_eq_some_iff.mpr ⟨member, key⟩, holds.2, holds.1⟩

theorem cancelAllQueued_refines (queue : TaskQueue) (now : Nat)
    (projectName : String) (projectId : Option String) :
    Refines queue (queue.cancelAllQueued now projectName projectId).1 := by
  unfold Refines
  rw [board_cancelAllQueued]
  apply steps_placeAll
  · apply Nodup.sublist _ queue.tasks.keysNodup
    exact Sublist.map Task.taskId filter_sublist
  · show TaskStatus.queued.canBecome .cancelled = true
    rfl
  · nofun
  · intro id listed
    obtain ⟨task, found, queued, _⟩ := bulkCancelledIds_queued listed
    exact ⟨_, board_job_of_find found, queued⟩

theorem requeuedIds_running {limit : Int} {id : String} (listed : id ∈ queue.requeuedIds limit) :
    ∃ task, queue.find? id = some task ∧ task.status = .running := by
  obtain ⟨task, taken, key⟩ := mem_map.mp listed
  have selected := mem_orderBy.mp (mem_of_mem_take taken)
  obtain ⟨member, running⟩ := mem_filter.mp selected
  exact ⟨task, find?_eq_some_iff.mpr ⟨member, key⟩, of_decide_eq_true running⟩

section

variable (queue : TaskQueue)

theorem requeuedIds_nodup (limit : Int) : (queue.requeuedIds limit).Nodup := by
  have selected : ((queue.tasks.select (fun task =>
      (task.status = .running))).map Task.taskId).Nodup := by
    apply Nodup.sublist _ queue.tasks.keysNodup
    exact Sublist.map Task.taskId filter_sublist
  have ordered : ((orderBy Task.updatedAt (queue.tasks.select (fun task =>
      (task.status = .running)))).map Task.taskId).Nodup := by
    apply (Perm.nodup_iff _).mpr selected
    exact (perm_insertionSort _ _).map Task.taskId
  exact ordered.sublist (Sublist.map Task.taskId (take_sublist _ _))

theorem board_requeueRunning (now : Nat) (limit : Int) : (queue.requeueRunning now limit).1.board =
      queue.board.placeAll (queue.requeuedIds limit) .queued := by
  unfold requeueRunning
  simp only
  split
  · rename_i none
    rw [isEmpty_iff.mp none]
    simp [placeAll]
  · refine board_bulk ?_ rfl ?_ (fun _ => rfl) (fun _ => rfl) ?_
    · exact fun _ => rfl
    · simp [board, entry, TaskStatus.isTerminal]
    · intro task member
      simp only [Bool.and_eq_true, decide_eq_true_eq]
      constructor
      · intro listed
        obtain ⟨row, found, running⟩ := requeuedIds_running listed
        cases found.symm.trans (find?_of_mem member)
        exact ⟨listed, running⟩
      · exact And.left

theorem requeueRunning_refines (now : Nat) (limit : Int) :
    Refines queue (queue.requeueRunning now limit).1 := by
  unfold Refines
  rw [board_requeueRunning]
  apply steps_placeAll (queue.requeuedIds_nodup limit)
  · show TaskStatus.running.canBecome .queued = true
    rfl
  · nofun
  · intro id listed
    obtain ⟨task, found, running⟩ := requeuedIds_running listed
    exact ⟨_, board_job_of_find found, running⟩

/-! ## Whole runs -/

theorem markSucceeded_cases (now : Nat) (taskId resultJson : String) :
    SettlesOrKeeps queue (queue.markSucceeded now taskId resultJson) taskId
      (fun status => status = .running) .succeeded :=
  settleTask_cases queue taskId (fun status => status = .running) _ _
    .succeeded (fun _ running => of_decide_eq_true running ▸ rfl) rfl
    (fun _ => rfl) (fun _ => rfl)

theorem markSucceeded_retires (now : Nat) (taskId resultJson : String) :
    Retires queue (queue.markSucceeded now taskId resultJson).1 := by
  rcases markSucceeded_cases queue now taskId resultJson with
    ⟨_, same, _⟩ | ⟨_, before, settled⟩
  · rw [same]
    exact .refl queue
  · apply settled.retires rfl
    rw [of_decide_eq_true settled.holds]
    rfl

end

theorem markFailed_retires (text : FailureText) (queue : TaskQueue)
    (now : Nat) (taskId errorMessage : String) :
    Retires queue (markFailed text queue now taskId errorMessage).1 := by
  have marked := markFailedFrom_retires .running text queue now taskId errorMessage rfl
  unfold markFailed
  simp only
  split
  · exact .refl queue
  · exact marked.trans (cascadeFailedQueued_retires text now errorMessage
      queue.recursionBudget _ taskId)

variable {now : Nat} {taskId : String}

theorem cancelTask_eq {cancelled : TaskQueue} {report : CancelReport}
    (result : queue.cancelTask now taskId = some (cancelled, report)) :
    cancelled = (dispatchCancel now (cancelWith now true queue.recursionBudget "user") "user"
      (queue, .empty) taskId).1 := by
  unfold cancelTask at result
  split at result
  · cases result
  · exact (congrArg Prod.fst (Option.some.inj result)).symm

theorem apply_refines (text : FailureText) (queue : TaskQueue)
    (op : QueueOp) : Refines queue (queue.apply text op) := by
  cases op with
  | enqueue now taskId request => exact enqueue_refines queue now taskId request
  | claimNext now mediaType poolFullProviders excludeTaskIds =>
    exact claimNext_refines queue now mediaType poolFullProviders excludeTaskIds
  | markSucceeded now taskId resultJson =>
    exact (markSucceeded_retires queue now taskId resultJson).steps
  | markFailed now taskId errorMessage =>
    exact (markFailed_retires text queue now taskId errorMessage).steps
  | cancelTask now taskId =>
    unfold apply
    simp only
    split
    · rename_i result
      rw [cancelTask_eq result]
      exact (dispatchCancel_retires now (cancelWith_retires now true
        queue.recursionBudget "user") "user" (queue, .empty) taskId).steps
    · exact .refl queue
  | finalizeCancelled now taskId cancelledBy =>
    exact (markCancelled_retires now true queue.recursionBudget cancelledBy
      queue .empty taskId).steps
  | cancelAllQueued now projectName projectId =>
    exact cancelAllQueued_refines queue now projectName projectId
  | requeueRunning now limit => exact requeueRunning_refines queue now limit

theorem requeueSingleTask_refines (queue : TaskQueue) (now : Nat) (taskId : String) :
    Refines queue (queue.requeueSingleTask now taskId).1 := by
  unfold requeueSingleTask Refines
  rcases updateTask_cases queue taskId (fun status => status = .running) (fun task => { task with
      status := .queued
      startedAt := none
      updatedAt := now }) (fun _ => rfl) .queued rfl (fun _ => rfl)
    (fun _ => rfl) with ⟨_, same, _⟩ | ⟨_, before, found, holds, moved⟩
  · rw [same]
  · rw [moved]
    apply Relation.ReflTransGen.single
    apply Step.move (board_job_of_find found)
    · rw [of_decide_eq_true holds]
      rfl
    · nofun

/-- One operation of the repository is a sequence of board steps. -/
theorem applyAny_refines (text : FailureText) (queue : TaskQueue)
    (op : RepositoryOp) : Refines queue (queue.applyAny text op) := by
  cases op with
  | call op => exact apply_refines text queue op
  | markCancelling now taskId cancelledBy =>
    exact (markCancelling_retires queue now taskId cancelledBy).steps
  | markCancelled now taskId cancelledBy cascade =>
    exact (markCancelled_retires now cascade queue.recursionBudget
      cancelledBy queue .empty taskId).steps
  | requeueSingleTask now taskId => exact requeueSingleTask_refines queue now taskId
  | persistExecutionProviderId now taskId providerId =>
    -- the provider column is not part of the board
    suffices same : (queue.persistExecutionProviderId now taskId providerId).board = queue.board by
      unfold Refines applyAny
      rw [same]
    apply Board.ext
    · funext wanted
      simp only [board, persistExecutionProviderId, find_updateTask]
      cases queue.find? wanted with
      | none => rfl
      | some task =>
        simp only [Option.map_some]
        split <;> rfl
    · rfl

theorem runAny_refines (text : FailureText) (ops : List RepositoryOp)
    (queue : TaskQueue) : Refines queue (queue.runAny text ops) :=
  foldl_relates Refines Refines.refl Refines.trans (applyAny_refines text) ops queue

theorem status_stays (refines : Refines queue next) (found : queue.find? taskId = some task)
    (settled : task.status.isTerminal = true) :
    ∃ later, next.find? taskId = some later ∧ later.status = task.status := by
  have kept := Steps.keeps_settled refines (board_job_of_find found) settled
  obtain ⟨later, row, sameStatus, _⟩ := find_of_board_job kept
  exact ⟨later, row, sameStatus⟩

theorem eventsOf_accounted (accounted : queue.board.Accounted) (taskId : String) :
    (queue.eventsOf taskId).map TerminalEvent.status =
      match queue.find? taskId with
      | some task => if task.status.isTerminal then [task.status] else []
      | none => [] := by
  have balance := accounted taskId
  unfold entriesOf board at balance
  rw [filter_map, map_map] at balance
  refine balance.trans ?_
  simp only [expectedEntries]
  cases queue.find? taskId <;> rfl

theorem runAny_accounted (text : FailureText) (ops : List RepositoryOp) :
    (empty.runAny text ops).board.Accounted :=
  Steps.accounted (runAny_refines text ops empty) accounted_empty

theorem settled_event {text : FailureText} {ops : List RepositoryOp}
    (found : (empty.runAny text ops).find? taskId = some task)
    (settled : task.status.isTerminal = true) :
    ∃ event, (empty.runAny text ops).eventsOf taskId = [event] ∧ event.status = task.status := by
  have events := eventsOf_accounted (runAny_accounted text ops) taskId
  simp only [found, settled, if_true] at events
  obtain ⟨event, single, status⟩ := map_eq_singleton_iff.mp events
  exact ⟨event, single, status⟩

/-! ## Rows that a write settles -/

theorem find_later (refines : Refines queue next) (found : queue.find? taskId = some task) :
    ∃ later, next.find? taskId = some later := by
  have present : queue.board.job taskId ≠ none := by
    rw [board_job_of_find found]
    simp
  have kept := Steps.keeps_job refines present
  obtain ⟨job, stored⟩ := Option.ne_none_iff_exists'.mp kept
  obtain ⟨later, row, _⟩ := find_of_board_job stored
  exact ⟨later, row⟩

def IsSettled (queue : TaskQueue) (taskId : String) : Prop :=
  ∃ task, queue.find? taskId = some task ∧ task.status.isTerminal = true

theorem IsSettled.later (settled : queue.IsSettled taskId) (refines : Refines queue next) :
    next.IsSettled taskId := by
  obtain ⟨task, found, terminal⟩ := settled
  obtain ⟨later, row, sameStatus⟩ := status_stays refines found terminal
  exact ⟨later, row, sameStatus ▸ terminal⟩

variable {guard : TaskStatus → Bool} {status : TaskStatus} {before : Task}
  (settled : Settled queue next taskId guard status before)

include settled in
theorem Settled.status_eq : ∃ task, next.find? taskId = some task ∧ task.status = status := by
  have placed : next.board.job taskId = some ⟨status, before.dependencyTaskId⟩ := by
    rw [settled.boardEq, place_job_self]
  obtain ⟨task, row, sameStatus, _⟩ := find_of_board_job placed
  exact ⟨task, row, sameStatus⟩

include settled in
theorem Settled.isSettled (terminal : status.isTerminal = true) : next.IsSettled taskId := by
  obtain ⟨task, row, sameStatus⟩ := settled.status_eq
  exact ⟨task, row, sameStatus ▸ terminal⟩

theorem markSucceeded_status {resultJson : String}
    (changed : (queue.markSucceeded now taskId resultJson).2 ≠ 0) :
    ∃ task, (queue.markSucceeded now taskId resultJson).1.find? taskId =
      some task ∧ task.status = .succeeded := by
  rcases markSucceeded_cases queue now taskId resultJson with
    ⟨zero, _, _⟩ | ⟨_, before, settled⟩
  · exact absurd zero changed
  · exact settled.status_eq

theorem markSucceeded_rows_le_one (queue : TaskQueue) (now : Nat) (taskId resultJson : String) :
    (queue.markSucceeded now taskId resultJson).2 ≤ 1 := by
  have once := rowcount_key_le_one queue.tasks taskId (fun task => task.status = .running)
  unfold markSucceeded settleTask
  simp only
  split
  · exact Nat.zero_le 1
  · split <;> exact once

theorem finalizeCancelled_settles (queue : TaskQueue) (now : Nat)
    (taskId cancelledBy : String) (found : queue.find? taskId = some task) :
    (queue.finalizeCancelled now taskId cancelledBy).1.IsSettled taskId := by
  rcases markCancelled_cases now true queue.tasks.rows.length cancelledBy queue .empty taskId with
      ⟨same, inactive⟩ | ⟨next, before, recorded, settled, result⟩
  · refine ⟨task, ?_, ?_⟩
    · exact (congrArg (find? · taskId) same).trans found
    · have isInactive := inactive task found
      rw [TaskStatus.isActive_eq_not_isTerminal] at isInactive
      simpa using isInactive
  · have below := foldl_dispatchCancel_retires now
      (cancelWith_retires now true queue.tasks.rows.length "cascade")
      "cascade" (next.dependentIds taskId) (next, recorded)
    rw [show (queue.finalizeCancelled now taskId cancelledBy).1 = _ from result]
    exact IsSettled.later (settled.isSettled rfl) below.steps

/-- In every queue the repository can produce, the status of a settled task
never changes again, a settled task has exactly one terminal event and that
event carries its status, and no other task has one. -/
theorem settled_tasks_absorbing_and_accounted (text : FailureText) (ops : List RepositoryOp) :
    (∀ taskId task, (empty.runAny text ops).find? taskId = some task →
      task.status.isTerminal = true → ∀ furtherOps : List RepositoryOp, ∃ later,
          ((empty.runAny text ops).runAny text furtherOps).find? taskId =
            some later ∧ later.status = task.status) ∧
    (∀ taskId task, (empty.runAny text ops).find? taskId = some task →
      task.status.isTerminal = true → ∃ event, (empty.runAny text ops).eventsOf taskId = [event] ∧
          event.status = task.status) ∧
    (∀ taskId, (∀ task, (empty.runAny text ops).find? taskId = some task →
        task.status.isTerminal = false) →
      (empty.runAny text ops).eventsOf taskId = []) := by
  refine ⟨?_, ?_, ?_⟩
  · intro taskId task found settled furtherOps
    exact status_stays (runAny_refines text furtherOps _) found settled
  · intro taskId task found settled
    exact settled_event found settled
  · intro taskId unsettled
    apply map_eq_nil_iff.mp
    rw [eventsOf_accounted (runAny_accounted text ops)]
    split
    · next task row => rw [unsettled task row, if_neg Bool.false_ne_true]
    · rfl

/-- In every queue the repository can produce, requeueing included, a task
that is running, cancelling or succeeded has a dependency that succeeded. -/
theorem started_task_dependency_succeeded (text : FailureText)
    (ops : List RepositoryOp) {taskId parent : String} {task : Task}
    (found : (empty.runAny text ops).find? taskId = some task)
    (started : task.status = .running ∨ task.status = .cancelling ∨ task.status = .succeeded)
    (named : task.dependencyTaskId = some parent) :
    ∃ dependency, (empty.runAny text ops).find? parent = some dependency ∧
        dependency.status = .succeeded := by
  have inOrder : (empty.runAny text ops).board.InOrder :=
    Steps.inOrder (runAny_refines text ops empty) inOrder_empty
  have wasStarted : wasStarted task.status = true := by
    rcases started with status | status | status
    all_goals
      rw [status]
      rfl
  have ready := inOrder taskId _ (board_job_of_find found) wasStarted
  obtain ⟨job, row, succeeded⟩ := ready parent named
  obtain ⟨dependency, parentRow, sameStatus, _⟩ := find_of_board_job row
  exact ⟨dependency, parentRow, sameStatus.trans succeeded⟩

theorem claimed_dependent_dependency_succeeded : ∃ dependency, (empty.runAny .verbatim
        [.call (.enqueue 1 "parent" (.plain "image" "project" "first" none)),
          .call (.claimNext 2 "image" [] []),
          .call (.markSucceeded 3 "parent" "\x7b\x7d"),
          .call (.enqueue 4 "child" (.plain "image" "project" "second" (some "parent"))),
          .call (.claimNext 5 "image" [] [])]).find? "parent" =
        some dependency ∧ dependency.status = .succeeded := by
  exact started_task_dependency_succeeded .verbatim _
    (show TaskQueue.find? _ "child" = some _ from rfl) (.inl rfl) rfl

end TaskQueue

end MatrixSpooll.Queue
