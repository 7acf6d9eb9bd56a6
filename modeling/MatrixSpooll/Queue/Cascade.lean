import MatrixSpooll.Library.Fold
import MatrixSpooll.Queue.Repository

/-!
# Failure and cancellation cascades

Both cascades only take steps of the board that move jobs towards a terminal
status (`Retires`).  With a budget above the number of active rows a cascade
reaches every queued dependent: `cascadeFailedQueued_quenches` and
`markCancelled_quenches` state that it leaves no queued job behind a
dependency that it has just failed or cancelled.
-/

namespace MatrixSpooll.Queue

open Library KeyedTable

namespace TaskQueue

open TaskStatus

/-- Rows that are queued, running or cancelling. -/
def activeCount (queue : TaskQueue) : Nat :=
  queue.tasks.rowcount (fun task => task.status.isActive)

theorem activeCount_lt_recursionBudget (queue : TaskQueue) :
    queue.activeCount < queue.recursionBudget := by
  have bounded : queue.activeCount ≤ queue.tasks.rows.length := List.countP_le_length
  unfold recursionBudget
  omega

/-- Steps of the board that put nothing back into the queue. -/
structure Retires (queue next : TaskQueue) : Prop where
  steps : Board.Steps queue.board next.board
  queuedWithin : next.board.QueuedWithin queue.board
  active : next.activeCount ≤ queue.activeCount

theorem Retires.refl (queue : TaskQueue) : Retires queue queue :=
  { steps := .refl
    queuedWithin := .refl queue.board
    active := Nat.le_refl _ }

theorem Retires.trans {first second third : TaskQueue}
    (earlier : Retires first second) (later : Retires second third) :
    Retires first third :=
  { steps := earlier.steps.trans later.steps
    queuedWithin := later.queuedWithin.trans earlier.queuedWithin
    active := Nat.le_trans later.active earlier.active }

/-- The row is in the queue. -/
def IsQueued (queue : TaskQueue) (taskId : String) : Prop :=
  ∃ job, queue.board.job taskId = some job ∧ job.status = .queued

variable {queue next : TaskQueue} {taskId : String}

theorem Retires.not_isQueued (retires : Retires queue next)
    (absent : ¬ queue.IsQueued taskId) : ¬ next.IsQueued taskId := by
  intro later
  obtain ⟨job, found, queued⟩ := later
  exact absent ⟨job, retires.queuedWithin taskId job found queued, queued⟩

theorem isQueued_of_find {task : Task} (found : queue.find? taskId = some task) :
    queue.IsQueued taskId ↔ task.status = .queued := by
  constructor
  · intro isQueued
    obtain ⟨job, row, queued⟩ := isQueued
    rw [board_job_of_find found] at row
    cases row
    exact queued
  · intro queued
    exact ⟨_, board_job_of_find found, queued⟩

theorem not_isQueued_of_missing
    (missing : queue.find? taskId = none) : ¬ queue.IsQueued taskId := by
  intro isQueued
  obtain ⟨job, row, _⟩ := isQueued
  simp [board, missing] at row

@[simp] theorem activeCount_recordTerminalEvent (queue : TaskQueue) (event : TerminalEvent) :
    (queue.recordTerminalEvent event).activeCount = queue.activeCount := by
  unfold recordTerminalEvent
  split <;> rfl

/-- What a settlement that matched did. -/
structure Settled (queue next : TaskQueue) (taskId : String)
    (guard : TaskStatus → Bool) (status : TaskStatus) (before : Task) :
    Prop where
  found : queue.find? taskId = some before
  holds : guard before.status = true
  boardEq : next.board = queue.board.place taskId ⟨status, before.dependencyTaskId⟩
  activeLt : next.activeCount < queue.activeCount
  stored : ∃ after, next.find? taskId = some after

/-- What a guarded settlement did: it left the queue as it was, or the row
matched and is settled. -/
def SettlesOrKeeps (queue : TaskQueue) (result : TaskQueue × Nat)
    (taskId : String) (guard : TaskStatus → Bool) (status : TaskStatus) :
    Prop :=
  (result.2 = 0 ∧ result.1 = queue ∧
      ∀ task, queue.find? taskId = some task → guard task.status = false) ∨
    (result.2 ≠ 0 ∧ ∃ before, Settled queue result.1 taskId guard status before)

theorem settleTask_cases (queue : TaskQueue) (taskId : String)
    (guard : TaskStatus → Bool) (assign : Task → Task)
    (keyFixed : ∀ task, (assign task).taskId = task.taskId) (status : TaskStatus)
    (guardActive : ∀ before, guard before = true → before.isActive = true)
    (terminal : status.isTerminal = true)
    (assigned : ∀ task, (assign task).status = status) (sameDependency : ∀ task,
      (assign task).dependencyTaskId = task.dependencyTaskId) :
    SettlesOrKeeps queue (queue.settleTask taskId guard assign keyFixed status) taskId guard
      status := by
  unfold settleTask
  by_cases zero : (queue.updateTask taskId guard assign keyFixed).2 = 0
  · simp only [zero, if_true]
    exact .inl ⟨rfl, rfl, fun _ found => updateTask_rowcount_zero zero found⟩
  · obtain ⟨before, found, holds⟩ := updateTask_rowcount_pos zero
    simp only [zero, if_false, find_updateTask_self found holds]
    right
    refine ⟨zero, before, ?_⟩
    have inactive : ∀ task : Task, ((task.taskId = taskId) && guard task.status) = true →
          (assign task).status.isActive = false := by
      intro task _
      rw [assigned task, isActive_eq_not_isTerminal, terminal]
      rfl
    exact
      { found := found
        holds := holds
        boardEq := board_settleTask found holds (assigned before) (sameDependency before) _ rfl rfl
        activeLt := by
          rw [activeCount_recordTerminalEvent]
          exact rowcount_update_lt queue.tasks keyFixed inactive (find?_mem found)
            (by simp [find?_key found, holds]) (guardActive _ holds)
        stored := ⟨assign before, by
          rw [find_recordTerminalEvent]
          exact find_updateTask_self found holds⟩ }

variable {guard : TaskStatus → Bool} {status : TaskStatus} {before : Task} {pending : String → Prop}

section

variable (settled : Settled queue next taskId guard status before)
include settled

variable (terminal : status.isTerminal = true)
include terminal

theorem Settled.retires (change : before.status.canBecome status = true) : Retires queue next := by
  refine { steps := ?_, queuedWithin := ?_, active := ?_ }
  · rw [settled.boardEq]
    apply Relation.ReflTransGen.single
    apply Board.Step.move (board_job_of_find settled.found) change
    intro running
    exact absurd running (ne_running_of_isTerminal terminal)
  · rw [settled.boardEq]
    exact Board.queuedWithin_place _ _ (ne_queued_of_isTerminal terminal)
  · exact Nat.le_of_lt settled.activeLt

theorem Settled.not_isQueued : ¬ next.IsQueued taskId := by
  intro isQueued
  obtain ⟨job, row, queued⟩ := isQueued
  rw [settled.boardEq, Board.place_job_self] at row
  cases row
  exact ne_queued_of_isTerminal terminal queued

theorem Settled.unblockedExcept (unblocked : queue.board.UnblockedExcept pending) :
    next.board.UnblockedExcept (fun id => id = taskId ∨ pending id) := by
  rw [settled.boardEq]
  apply Board.UnblockedExcept.place
  · exact unblocked.mono (fun _ listed => .inr listed)
  · intro _
    exact .inl rfl
  · intro queued
    exact absurd queued (ne_queued_of_isTerminal terminal)

end

/-! ## Failure -/

section

variable (source : TaskStatus) (text : FailureText) (queue : TaskQueue)
  (now : Nat) (taskId errorMessage : String)

theorem markFailedFrom_cases (active : source.isActive = true) : SettlesOrKeeps queue
      (markFailedFrom source text queue now taskId errorMessage) taskId
      (fun status => status = source) .failed :=
  settleTask_cases queue taskId (fun status => status = source) _ _ .failed
    (fun _ same => of_decide_eq_true same ▸ active) rfl (fun _ => rfl) (fun _ => rfl)

theorem markFailedFrom_retires (change : source.canBecome .failed = true) : Retires queue
      (markFailedFrom source text queue now taskId errorMessage).1 := by
  have active : source.isActive = true := by
    rw [isActive_eq_not_isTerminal, canBecome_active change]
    rfl
  rcases markFailedFrom_cases source text queue now taskId errorMessage active
    with ⟨_, same, _⟩ | ⟨_, before, settled⟩
  · rw [same]
    exact Retires.refl queue
  · apply settled.retires rfl
    rw [of_decide_eq_true settled.holds]
    exact change

end

variable (text : FailureText) (now : Nat) (errorMessage : String) (budget : Nat)

theorem failDependent_retires {recur : TaskQueue → String → TaskQueue × Nat}
    (recurRetires : ∀ queue id, Retires queue (recur queue id).1)
    (taskId errorMessage : String) (state : TaskQueue × Nat) (dependentId : String) :
    Retires state.1 (failDependent text now recur taskId errorMessage state dependentId).1 := by
  have marked : Retires state.1 (markFailedQueuedDep text state.1 now dependentId
        (text.encodeBoundedCascadeFailure taskId errorMessage)).1 :=
    markFailedFrom_retires .queued text state.1 now dependentId _ rfl
  unfold failDependent
  simp only
  split
  · exact marked
  · exact marked.trans (recurRetires _ dependentId)

theorem cascadeFailedQueued_retires (queue : TaskQueue) (taskId : String) : Retires queue
      (cascadeFailedQueued text now errorMessage budget queue taskId).1 := by
  induction budget generalizing queue taskId with
  | zero => exact Retires.refl queue
  | succ budget induction =>
    unfold cascadeFailedQueued
    exact foldl_relates (fun first second : TaskQueue × Nat => Retires first.1 second.1)
      (fun state => Retires.refl state.1) Retires.trans
      (failDependent_retires text now induction taskId errorMessage) _ (queue, 0)

/-- Every queued row that depends on `taskId` is listed. -/
def QueuedDependentsIn (queue : TaskQueue) (taskId : String) (listed : List String) : Prop :=
  ∀ id job, queue.board.job id = some job → job.status = .queued →
    job.dependency = some taskId → id ∈ listed

theorem mem_orderedIds {guard : Task → Bool} {task : Task}
    (found : queue.find? taskId = some task) (holds : guard task = true) :
    taskId ∈ (orderBy Task.queuedAt (queue.tasks.select guard)).map Task.taskId :=
  List.mem_map.mpr ⟨task, mem_orderBy.mpr (List.mem_filter.mpr
    ⟨find?_mem found, holds⟩), find?_key found⟩

theorem queuedDependentIds_complete (queue : TaskQueue) (taskId : String) :
    queue.QueuedDependentsIn taskId (queue.queuedDependentIds taskId) := by
  intro id job found queued named
  obtain ⟨task, row, sameStatus, sameDependency⟩ := find_of_board_job found
  apply mem_orderedIds row
  simp [sameStatus, sameDependency, queued, named]

theorem dependentIds_complete (queue : TaskQueue) (taskId : String) :
    queue.QueuedDependentsIn taskId (queue.dependentIds taskId) := by
  intro id job found _ named
  obtain ⟨task, row, _, sameDependency⟩ := find_of_board_job found
  apply mem_orderedIds row
  simp [sameDependency, named]

theorem QueuedDependentsIn.advance {id : String} {rest : List String}
    (complete : queue.QueuedDependentsIn taskId (id :: rest))
    (retires : Retires queue next) (gone : ¬ next.IsQueued id) :
    next.QueuedDependentsIn taskId rest := by
  intro other job found queued named
  have before := retires.queuedWithin other job found queued
  have either := complete other job before queued named
  rcases List.mem_cons.mp either with same | later
  · subst same
    exact absurd ⟨job, found, queued⟩ gone
  · exact later

/-- What the body of a cascade loop achieves for one dependent. -/
structure Quenched (queue next : TaskQueue) (id : String) (pending : String → Prop) : Prop where
  retires : Retires queue next
  unblocked : queue.board.UnblockedExcept pending →
    next.board.UnblockedExcept pending
  gone : ¬ next.IsQueued id

/-- A loop over all queued dependents whose body quenches each of them. -/
theorem foldl_quenches {Report : Type}
    {turn : TaskQueue × Report → String → TaskQueue × Report} (budget : Nat)
    (body : ∀ state id, state.1.activeCount < budget → Quenched state.1 (turn state id).1 id
        (fun other => other = taskId ∨ pending other)) {ids : List String}
    {start : TaskQueue × Report} (complete : start.1.QueuedDependentsIn taskId ids)
    (bounded : start.1.activeCount < budget) (unblocked : start.1.board.UnblockedExcept
      (fun other => other = taskId ∨ pending other)) :
    (ids.foldl turn start).1.board.UnblockedExcept pending := by
  have finished := foldl_loop (fun rest (state : TaskQueue × Report) =>
      state.1.activeCount < budget ∧
      state.1.board.UnblockedExcept (fun other => other = taskId ∨ pending other) ∧
      state.1.QueuedDependentsIn taskId rest)
    (fun id rest state held => by
      obtain ⟨activeBound, before, listed⟩ := held
      have quenched := body state id activeBound
      exact ⟨Nat.lt_of_le_of_lt quenched.retires.active activeBound,
        quenched.unblocked before, listed.advance quenched.retires quenched.gone⟩)
    (show _ ∧ _ from ⟨bounded, unblocked, complete⟩)
  obtain ⟨_, remaining, none⟩ := finished
  intro child childJob parent parentJob childRow queued named parentRow blocked
  have either := remaining child childJob parent parentJob childRow queued named parentRow blocked
  -- a dependency without queued dependents can be dropped
  rcases either with same | listed
  · subst same
    exact absurd (none child childJob childRow queued named) List.not_mem_nil
  · exact listed

theorem failDependent_quenched (text : FailureText) (now : Nat)
    {recur : TaskQueue → String → TaskQueue × Nat} {budget : Nat}
    (recurRetires : ∀ queue id, Retires queue (recur queue id).1)
    (recurQuenches : ∀ queue id (pending : String → Prop), queue.activeCount < budget →
      queue.board.UnblockedExcept (fun other => other = id ∨ pending other) →
      (recur queue id).1.board.UnblockedExcept pending)
    (taskId errorMessage : String) (pending : String → Prop)
    (state : TaskQueue × Nat) (dependentId : String) (bounded : state.1.activeCount < budget + 1) :
    Quenched state.1 (failDependent text now recur taskId errorMessage state dependentId).1
      dependentId pending := by
  have retires := failDependent_retires text now recurRetires taskId errorMessage state dependentId
  have cases := markFailedFrom_cases .queued text state.1 now dependentId
    (text.encodeBoundedCascadeFailure taskId errorMessage) rfl
  rcases cases with ⟨zero, same, guarded⟩ | ⟨nonzero, before, settled⟩
  · unfold failDependent markFailedQueuedDep
    simp only [zero, if_true]
    rw [same]
    refine { retires := .refl _, unblocked := id, gone := ?_ }
    cases row : state.1.find? dependentId with
    | none => exact not_isQueued_of_missing row
    | some task =>
      rw [isQueued_of_find row]
      exact of_decide_eq_false (guarded task row)
  · unfold failDependent markFailedQueuedDep at retires ⊢
    simp only [nonzero, if_false] at retires ⊢
    refine { retires := retires, unblocked := ?_, gone := ?_ }
    · intro unblocked
      apply recurQuenches
      · have fewer := settled.activeLt
        omega
      · exact settled.unblockedExcept rfl unblocked
    · exact (recurRetires _ dependentId).not_isQueued (settled.not_isQueued rfl)

/-- With a budget above the number of active rows the failure cascade leaves
no queued row behind the failed task. -/
theorem cascadeFailedQueued_quenches (text : FailureText) (now : Nat)
    (errorMessage : String) (budget : Nat) (queue : TaskQueue) (taskId : String)
    (pending : String → Prop) (enough : queue.activeCount < budget)
    (unblocked : queue.board.UnblockedExcept (fun other => other = taskId ∨ pending other)) :
    (cascadeFailedQueued text now errorMessage budget queue
      taskId).1.board.UnblockedExcept pending := by
  induction budget generalizing queue taskId pending with
  | zero => exact absurd enough (Nat.not_lt_zero _)
  | succ budget induction =>
    unfold cascadeFailedQueued
    refine foldl_quenches (budget + 1) ?_
      (queuedDependentIds_complete queue taskId) enough unblocked
    intro state id bounded
    exact failDependent_quenched text now (cascadeFailedQueued_retires text now errorMessage budget)
      (fun queue id pending => induction queue id pending) taskId
      errorMessage _ state id bounded

/-! ## Cancellation -/

section

variable (queue : TaskQueue) (now : Nat) (taskId cancelledBy : String)

theorem markCancelling_cases : ((queue.markCancelling now taskId cancelledBy).2 = 0 ∧
      (queue.markCancelling now taskId cancelledBy).1.board = queue.board ∧
      ∀ task, queue.find? taskId = some task → task.status ≠ .running) ∨
    ((queue.markCancelling now taskId cancelledBy).2 ≠ 0 ∧
      ∃ before, queue.find? taskId = some before ∧ before.status = .running ∧
        (queue.markCancelling now taskId cancelledBy).1.board =
          queue.board.place taskId ⟨.cancelling, before.dependencyTaskId⟩) := by
  rcases updateTask_cases queue taskId (fun status => status = .running) (fun task => { task with
      status := .cancelling
      cancelledBy := some cancelledBy
      updatedAt := now }) (fun _ => rfl) .cancelling rfl (fun _ => rfl)
    (fun _ => rfl) with ⟨zero, same, guarded⟩ | ⟨nonzero, before, found, holds, moved⟩
  · left
    refine ⟨zero, same, ?_⟩
    intro task found
    exact of_decide_eq_false (guarded task found)
  · right
    exact ⟨nonzero, before, found, of_decide_eq_true holds, moved⟩

theorem markCancelling_retires : Retires queue (queue.markCancelling now taskId cancelledBy).1 := by
  have active : (queue.markCancelling now taskId cancelledBy).1.activeCount ≤
        queue.activeCount := by
    apply rowcount_update_le
    · intro task
      rfl
    · intro task guarded _
      have running : task.status = .running := by
        simpa using (Bool.and_eq_true_iff.mp guarded).2
      rw [running]
      rfl
  rcases markCancelling_cases queue now taskId cancelledBy with
    ⟨_, same, _⟩ | ⟨_, before, found, running, moved⟩
  · refine { steps := ?_, queuedWithin := ?_, active := active }
    · rw [same]
    · rw [same]
      exact .refl _
  · refine { steps := ?_, queuedWithin := ?_, active := active }
    · rw [moved]
      apply Relation.ReflTransGen.single
      apply Board.Step.move (board_job_of_find found)
      · rw [running]
        rfl
      · nofun
    · rw [moved]
      exact Board.queuedWithin_place _ _ nofun

end

/-- Every branch of the dispatch leaves the queue alone, sends the row to
`cancelling`, or cancels it. -/
theorem dispatchCancel_cases (cancel : TaskQueue → CancelReport → String → TaskQueue × CancelReport)
    (cancelledBy : String) (state : TaskQueue × CancelReport) (taskId : String) :
    ((dispatchCancel now cancel cancelledBy state taskId).1 = state.1 ∧ ¬ state.1.IsQueued taskId) ∨
      ((dispatchCancel now cancel cancelledBy state taskId).1 =
          (state.1.markCancelling now taskId cancelledBy).1 ∧
        ¬ state.1.IsQueued taskId) ∨
      ((dispatchCancel now cancel cancelledBy state taskId).1 = (cancel state.1 state.2 taskId).1 ∧
        ∃ task, state.1.find? taskId = some task ∧ task.status = .queued) := by
  obtain ⟨queue, report⟩ := state
  simp only [dispatchCancel]
  cases row : queue.find? taskId with
  | none => exact .inl ⟨rfl, not_isQueued_of_missing row⟩
  | some task =>
    have membership := isQueued_of_find row
    cases statusEq : task.status with
    | queued => exact .inr (.inr ⟨by simp only [statusEq], task, rfl, statusEq⟩)
    | running =>
      right
      left
      refine ⟨?_, by rw [membership, statusEq]; simp⟩
      simp only [statusEq]
      split
      · split
        · split
          · rfl
          · split <;> rfl
        · rfl
      · rfl
    | cancelling | succeeded | failed | cancelled =>
      exact .inl ⟨by simp only [statusEq], by
        rw [membership, statusEq]
        simp⟩

section

variable {cancel : TaskQueue → CancelReport → String → TaskQueue × CancelReport}
  (now : Nat) (cancelRetires : ∀ queue report id,
    Retires queue (cancel queue report id).1) (cancelledBy : String)

include cancelRetires

theorem dispatchCancel_retires (state : TaskQueue × CancelReport) (taskId : String) :
    Retires state.1 (dispatchCancel now cancel cancelledBy state taskId).1 := by
  rcases dispatchCancel_cases now cancel cancelledBy state taskId with
    ⟨same, _⟩ | ⟨marked, _⟩ | ⟨cancelled, _⟩
  · rw [same]
    exact .refl _
  · rw [marked]
    exact markCancelling_retires state.1 now taskId cancelledBy
  · rw [cancelled]
    exact cancelRetires state.1 state.2 taskId

theorem foldl_dispatchCancel_retires (ids : List String) (start : TaskQueue × CancelReport) :
    Retires start.1 (ids.foldl (dispatchCancel now cancel cancelledBy) start).1 :=
  foldl_relates (fun first second : TaskQueue × CancelReport => Retires first.1 second.1)
    (fun state => Retires.refl state.1) Retires.trans
    (dispatchCancel_retires now cancelRetires cancelledBy) ids start

theorem dispatchCancel_quenched (state : TaskQueue × CancelReport) (taskId : String)
    (cancelQuenches : ∀ task, state.1.find? taskId = some task → task.status = .queued →
      Quenched state.1 (cancel state.1 state.2 taskId).1 taskId pending) :
    Quenched state.1 (dispatchCancel now cancel cancelledBy state taskId).1 taskId
      pending := by
  have retires := dispatchCancel_retires now cancelRetires cancelledBy state taskId
  rcases dispatchCancel_cases now cancel cancelledBy state taskId with
    ⟨same, absent⟩ | ⟨marked, absent⟩ | ⟨cancelled, task, row, queued⟩
  · refine ⟨retires, ?_, retires.not_isQueued absent⟩
    rw [same]
    exact id
  · refine ⟨retires, ?_, retires.not_isQueued absent⟩
    rw [marked]
    intro unblocked
    rcases markCancelling_cases state.1 now taskId cancelledBy with
      ⟨_, same, _⟩ | ⟨_, before, found, running, moved⟩
    · rw [same]
      exact unblocked
    · rw [moved]
      exact Board.UnblockedExcept.place unblocked nofun nofun
  · rw [cancelled]
    exact cancelQuenches task row queued

end

private theorem active_canBecome_cancelled (active : status.isActive = true) :
    status.canBecome .cancelled = true := by
  cases status <;> simp_all [isActive, canBecome]

theorem Settled.retires_of_cancelled (settled : Settled queue next taskId isActive .cancelled
      before) : Retires queue next :=
  settled.retires rfl (active_canBecome_cancelled settled.holds)

/-- The cancellation `dispatchCancel` is given. -/
def cancelWith (now : Nat) (cascade : Bool) (budget : Nat)
    (cancelledBy : String) (queue : TaskQueue) (report : CancelReport)
    (taskId : String) : TaskQueue × CancelReport :=
  let (next, extended, _) := markCancelled now cascade budget cancelledBy queue report taskId
  (next, extended)

section

variable (now : Nat) (cascade : Bool) (budget : Nat) (cancelledBy : String)
  (queue : TaskQueue) (report : CancelReport) (taskId : String)

theorem markCancelled_cases : ((markCancelled now cascade (budget + 1) cancelledBy queue report
          taskId).1 = queue ∧
        ∀ task, queue.find? taskId = some task → task.status.isActive = false) ∨
      ∃ settled before recorded, Settled queue settled taskId isActive .cancelled before ∧
        (markCancelled now cascade (budget + 1) cancelledBy queue report taskId).1 =
          if cascade then
            ((settled.dependentIds taskId).foldl (dispatchCancel now
                (cancelWith now cascade budget "cascade") "cascade")
              (settled, recorded)).1
          else settled := by
  rw [markCancelled]
  have cases : SettlesOrKeeps queue (queue.settleCancelled now taskId cancelledBy) taskId
      isActive .cancelled :=
    settleTask_cases queue taskId isActive _ _ .cancelled
      (fun _ active => active) rfl (fun _ => rfl) (fun _ => rfl)
  rcases cases with ⟨zero, _, guarded⟩ | ⟨nonzero, before, settled⟩
  · left
    refine ⟨?_, guarded⟩
    simp only [zero, if_true]
  · right
    obtain ⟨after, stored⟩ := settled.stored
    refine ⟨_, before, report.addCancelled after, settled, ?_⟩
    simp only [nonzero, if_false, stored]
    cases cascade with
    | false | true => rfl

theorem markCancelled_retires : Retires queue
      (markCancelled now cascade budget cancelledBy queue report taskId).1 := by
  induction budget generalizing cancelledBy queue report taskId with
  | zero => exact .refl queue
  | succ budget induction =>
    rcases markCancelled_cases now cascade budget cancelledBy queue report
      taskId with ⟨same, _⟩ | ⟨next, before, recorded, settled, result⟩
    · rw [same]
      exact .refl queue
    · rw [result]
      apply settled.retires_of_cancelled.trans
      cases cascade with
      | false => exact .refl next
      | true =>
        exact foldl_dispatchCancel_retires now
          (fun queue report id => induction "cascade" queue report id)
          "cascade" _ (next, recorded)

theorem cancelWith_retires : Retires queue
      (cancelWith now cascade budget cancelledBy queue report taskId).1 :=
  markCancelled_retires now cascade budget cancelledBy queue report taskId

theorem markCancelled_gone {task : Task} (found : queue.find? taskId = some task)
    (active : task.status.isActive = true) :
    ¬ (markCancelled now cascade (budget + 1) cancelledBy queue report
      taskId).1.IsQueued taskId := by
  rcases markCancelled_cases now cascade budget cancelledBy queue report
    taskId with ⟨_, guarded⟩ | ⟨next, before, recorded, settled, result⟩
  · rw [guarded task found] at active
    cases active
  · have absent := settled.not_isQueued rfl
    rw [result]
    cases cascade with
    | false => exact absent
    | true =>
      have below := foldl_dispatchCancel_retires now
        (cancelWith_retires now true budget "cascade") "cascade"
        (next.dependentIds taskId) (next, recorded)
      exact below.not_isQueued absent

end

/-- With a budget above the number of active rows a cancellation that cascades
leaves no queued row behind a cancelled one. -/
theorem markCancelled_quenches (now : Nat) (budget : Nat) (cancelledBy : String)
    (queue : TaskQueue) (report : CancelReport) (taskId : String)
    (pending : String → Prop) (enough : queue.activeCount < budget)
    (unblocked : queue.board.UnblockedExcept pending) :
    (markCancelled now true budget cancelledBy queue report
      taskId).1.board.UnblockedExcept pending := by
  induction budget generalizing cancelledBy queue report taskId pending with
  | zero => exact absurd enough (Nat.not_lt_zero _)
  | succ budget induction =>
    rcases markCancelled_cases now true budget cancelledBy queue report
      taskId with ⟨same, _⟩ | ⟨next, before, recorded, settled, result⟩
    · rw [same]
      exact unblocked
    · rw [result]
      have fewer := settled.activeLt
      refine foldl_quenches budget ?_ (dependentIds_complete next taskId)
        (show next.activeCount < budget by omega) (settled.unblockedExcept rfl unblocked)
      intro state id bounded
      apply dispatchCancel_quenched now (cancelWith_retires now true budget "cascade")
      intro task found queued
      have active : task.status.isActive = true := by
        rw [queued]
        rfl
      refine
        { retires := cancelWith_retires now true budget "cascade" _ _ _
          unblocked := ?_
          gone := ?_ }
      · exact induction "cascade" state.1 state.2 id _ bounded
      · cases budget with
        | zero => exact absurd bounded (Nat.not_lt_zero _)
        | succ budget =>
          exact markCancelled_gone now true budget "cascade" state.1 state.2 id found active

end TaskQueue

end MatrixSpooll.Queue
