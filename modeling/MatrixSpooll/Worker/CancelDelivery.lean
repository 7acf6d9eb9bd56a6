import MatrixSpooll.Worker.Schedule

/-!
# Delivery of `request_cancel`

`find_by_task` answers with the first bucket that holds a task, whether or not
the execution there is done.  A task that was requeued because its provider
changed can be registered again in another bucket before its old execution is
drained, and then the new execution cannot be cancelled.  `SoleHolder` excludes
exactly the registrations that leave a second holder ahead of the new one or an
unfinished one behind it.
-/

namespace MatrixSpooll.Worker

open Library Queue List SlotTable Occupancy

namespace Occupancy

/-- Registering the task under the key makes it the first holder and leaves no
other unfinished one. -/
structure SoleHolder (state : Occupancy) (key : BucketKey) (taskId : String) : Prop where
  ahead : ∀ row ∈ state.slots.slots.before key, row.2.get? taskId = none
  behind : ∀ row ∈ state.slots.slots.after key, ∀ occupant,
    row.2.get? taskId = some occupant → state.isDone occupant.task = true

/-- Only the first holder of a task can be unfinished. -/
def FirstOnly (state : Occupancy) : Prop :=
  ∀ taskId, (state.slots.holders taskId).Pairwise (fun _ later => state.isDone later = true)

theorem firstOnly_empty : empty.FirstOnly := fun _ => .nil

variable {state after : Occupancy}

theorem FirstOnly.advance (first : state.FirstOnly)
    (fewer : ∀ taskId, (after.slots.holders taskId).Sublist (state.slots.holders taskId))
    (ended : ∀ future, state.isDone future = true →
      after.isDone future = true) : after.FirstOnly := by
  intro taskId
  have kept := (first taskId).sublist (fewer taskId)
  apply kept.imp
  intro _ later done
  exact ended later done

variable {future : Nat}

theorem isDone_setExecution {before changed : Execution}
    (found : state.executions[future]? = some before)
    (ended : before.phase = .done → changed.phase = .done) (other : Nat)
    (done : state.isDone other = true) :
    (state.setExecution future changed).isDone other = true := by
  unfold isDone at done ⊢
  rw [getElem?_setExecution found]
  by_cases same : other = future
  · subst same
    rw [found] at done
    simp only [decide_eq_true_eq] at done
    simp [ended done]
  · rw [if_neg same]
    exact done

theorem FirstOnly.setExecution (first : state.FirstOnly) {before changed : Execution}
    (found : state.executions[future]? = some before)
    (ended : before.phase = .done → changed.phase = .done) :
    (state.setExecution future changed).FirstOnly := by
  refine first.advance ?_ (isDone_setExecution found ended)
  intro taskId
  exact .refl _

variable {execution : Execution}

theorem isDone_spawn (state : Occupancy)
    (created : execution.phase = .created) (pending : Bool) (future : Nat) :
    (state.spawn execution pending).isDone future = state.isDone future := by
  unfold isDone
  rw [getElem?_spawn]
  by_cases same : future = state.executions.length
  · subst same
    simp [created]
  · rw [if_neg same]

theorem FirstOnly.spawn (first : state.FirstOnly) {pending : Bool}
    (created : execution.phase = .created)
    (sole : state.SoleHolder execution.key execution.taskId) :
    (state.spawn execution pending).FirstOnly := by
  intro taskId
  have doneEq : ∀ future, (state.spawn execution pending).isDone future =
      state.isDone future := isDone_spawn state created pending
  simp only [doneEq]
  change ((state.slots.register execution.key execution.taskId _).holders taskId).Pairwise _
  by_cases same : taskId = execution.taskId
  · subst same
    unfold holders register
    rw [Dict.rows_put, filterMap_append,
      filterMap_cons_some (by rw [Dict.get?_put, if_pos rfl]; rfl)]
    have none : (state.slots.slots.before execution.key).filterMap
        (fun row => (row.2.get? execution.taskId).map Occupant.task) = [] := by
      apply filterMap_eq_nil_iff.mpr
      intro row member
      rw [sole.ahead row member]
      rfl
    have allDone : ∀ future ∈ (state.slots.slots.after execution.key).filterMap
          (fun row => (row.2.get? execution.taskId).map Occupant.task),
        state.isDone future = true := by
      intro future member
      obtain ⟨row, rowMember, result⟩ := mem_filterMap.mp member
      obtain ⟨occupant, stored, task⟩ := Option.map_eq_some_iff.mp result
      rw [← task]
      exact sole.behind row rowMember occupant stored
    rw [none, nil_append, pairwise_cons]
    refine ⟨allDone, ?_⟩
    apply pairwise_of_forall_mem_list
    intro _ _ later member
    exact allDone later member
  · rw [holders_register_other _ _ _ same]
    exact first taskId

theorem SoleHolder.spawn {pending : Bool} {taskId : String} (created : execution.phase = .created)
    (sole : state.SoleHolder execution.key taskId) :
    (state.spawn execution pending).SoleHolder execution.key taskId := by
  refine { ahead := ?_, behind := ?_ }
  · intro row member
    apply sole.ahead row
    rw [← Dict.before_put]
    exact member
  · intro row member occupant stored
    rw [isDone_spawn state created]
    apply sole.behind row _ occupant stored
    rw [← Dict.after_put]
    exact member

section

variable (first : state.FirstOnly)
include first

theorem FirstOnly.dispatchBucket (provider : String) (capacity : Nat) {taskIds : List String}
    (sole : ∀ taskId ∈ taskIds, state.SoleHolder (provider, "video") taskId) :
    (state.dispatchBucket provider capacity taskIds).FirstOnly := by
  refine (dispatchBucket_loop (fun rest current =>
    current.FirstOnly ∧ ∀ taskId ∈ rest, current.SoleHolder (provider, "video") taskId)
    state provider capacity taskIds ⟨first, ?_⟩ ?_).1
  · intro taskId member
    exact { (sole taskId member) with }
  · intro taskId rest current held
    obtain ⟨before, remaining⟩ := held
    constructor
    · exact before.spawn rfl (remaining taskId mem_cons_self)
    · intro other member
      exact SoleHolder.spawn rfl (remaining other (mem_cons_of_mem taskId member))

theorem FirstOnly.start (result : state.start future = some after) : after.FirstOnly := by
  obtain ⟨execution, found, created, cases⟩ := start_cases result
  have notDone : execution.phase ≠ .done := by
    rw [created]
    simp
  rcases cases with ⟨_, same⟩ | ⟨_, _, same⟩ | ⟨_, _, same⟩
  · subst same
    exact first.setExecution found (fun _ => rfl)
  all_goals
    subst same
    exact first.setExecution found (fun done => absurd done notDone)

theorem FirstOnly.acquire (result : state.acquire future = some after) : after.FirstOnly := by
  obtain ⟨execution, index, dispatch, found, _, waiting, _, _, same⟩ := acquire_cases result
  subst same
  apply first.advance
  · intro taskId
    change ((state.slots.promote execution.key execution.taskId).holders taskId).Sublist _
    rw [holders_promote]
  · apply isDone_setExecution found
    intro done
    rw [waiting] at done
    cases done

theorem FirstOnly.leave (result : state.leave future = some after) : after.FirstOnly := by
  obtain ⟨execution, found, _, running, same⟩ := leave_cases result
  subst same
  apply first.setExecution found
  intro done
  rw [running] at done
  cases done

theorem FirstOnly.finish (result : state.finish future = some after) : after.FirstOnly := by
  obtain ⟨execution, found, cases⟩ := finish_cases result
  rcases cases with ⟨_, same⟩ | ⟨index, dispatch, _, _, _, same⟩ | ⟨index, _, _, same⟩
  · subst same
    exact first.setExecution found (fun _ => rfl)
  all_goals
    subst same
    apply first.advance
    · exact holders_release_sublist _ _ _
    · exact isDone_setExecution found (fun _ => rfl)

theorem FirstOnly.requestCancel (taskId : String) : (state.requestCancel taskId).1.FirstOnly := by
  rcases requestCancel_cases state taskId with
    same | ⟨future, execution, _, found, _, same⟩
  · rw [same]
    exact first
  · rw [same]
    exact first.setExecution found id

theorem FirstOnly.drain : state.drain.FirstOnly :=
  first.advance (holders_drainFinished_sublist state.slots _) (fun _ done => done)

/-- The unfinished holder of a task is the one `find_by_task` answers with. -/
theorem FirstOnly.findByTask {key : BucketKey} {taskId : String} {occupant : Occupant}
    (stored : (state.slots.bucket key).get? taskId = some occupant)
    (unfinished : state.isDone occupant.task = false) :
    state.slots.findByTask taskId = some occupant.task := by
  have member := mem_holders stored
  have pairwise := first taskId
  rw [findByTask_eq_head]
  cases listed : state.slots.holders taskId with
  | nil =>
    rw [listed] at member
    cases member
  | cons head tail =>
    rw [listed] at member pairwise
    rcases mem_cons.mp member with isHead | inTail
    · rw [head?_cons, isHead]
    · have done := (pairwise_cons.mp pairwise).1 _ inTail
      rw [unfinished] at done
      cases done

end

end Occupancy

namespace GenerationWorker

/-- Every registration makes its execution the sole unfinished holder. -/
def soleHolders : Rules :=
  { enrol := SoleHolder
    dispatch := fun state provider taskIds => ∀ taskId ∈ taskIds,
      state.SoleHolder (provider, "video") taskId
    cancel := fun _ _ => True }

theorem firstOnly_preserved (capacity : CapacityTable) : Preserved capacity soleHolders FirstOnly :=
  { initially := firstOnly_empty
    enrol := fun _ _ _ first sole _ => first.spawn rfl sole
    dispatch := fun _ _ _ first sole _ => first.dispatchBucket _ _ sole
    start := fun _ _ _ first result => first.start result
    acquire := fun _ _ _ first result => first.acquire result
    leave := fun _ _ _ first result => first.leave result
    finish := fun _ _ _ first result => first.finish result
    cancel := fun _ taskId first _ => first.requestCancel taskId
    drain := fun _ first => first.drain }

/-- Along every run whose registrations make a sole holder, `request_cancel`
cancels every unfinished execution that is registered for its task. -/
theorem request_cancel_reaches_unfinished (text : FailureText)
    (capacity : CapacityTable) {worker : GenerationWorker}
    (reachable : ((system text capacity).restrict (Allows capacity soleHolders)).Reachable worker)
    {key : BucketKey} {taskId : String} {occupant : Occupant} {execution : Execution}
    (stored : (worker.occupancy.slots.bucket key).get? taskId = some occupant)
    (found : worker.occupancy.executions[occupant.task]? = some execution)
    (unfinished : execution.phase ≠ .done) : (worker.occupancy.requestCancel taskId).2 = true ∧
      (worker.occupancy.requestCancel taskId).1.executions[occupant.task]? =
        some { execution with cancelRequested := true } := by
  have first := (firstOnly_preserved capacity).invariant.reachable reachable
  have notDone : worker.occupancy.isDone occupant.task = false := by
    simp [isDone, found, unfinished]
  have holder := first.findByTask stored notDone
  have result : worker.occupancy.requestCancel taskId = (worker.occupancy.setExecution occupant.task
        { execution with cancelRequested := true }, true) := by
    simp only [requestCancel, holder, found, if_neg unfinished]
  rw [result]
  refine ⟨rfl, ?_⟩
  rw [getElem?_setExecution found, if_pos rfl]

/-- A queued video task. -/
def videoQueue : TaskQueue :=
  TaskQueue.empty.runAny .verbatim
    [.call (.enqueue 1 "task" (.plain "video" "project" "shot" none))]

/-- The provider of the claimed task changes, and the task is claimed for the
new provider after a drain has removed its first execution. -/
theorem request_cancel_reaches_claimed : ∃ worker occupant execution,
      ((system .verbatim .oneSlot).restrict (Allows .oneSlot soleHolders)).Reachable worker ∧
      worker.occupancy.executions.length = 2 ∧
      (worker.occupancy.slots.bucket ("second", "video")).get? "task" = some occupant ∧
      worker.occupancy.executions[occupant.task]? = some execution ∧
      (worker.occupancy.requestCancel "task").2 = true ∧
      (worker.occupancy.requestCancel "task").1.executions[occupant.task]? =
        some { execution with cancelRequested := true } := by
  have reachable : ((system .verbatim .oneSlot).restrict
      (Allows .oneSlot soleHolders)).Reachable _ :=
    ⟨onQueue videoQueue, [.beginClaims, .claimNext 2, .claimNext 3, .route 4 "first",
        .claimNext 5, .claimNext 6, .claimNext 7, .start 0, .providerChanged 8 0 "second",
        .finish 0, .drain, .beginClaims, .claimNext 9, .claimNext 10, .route 11 "second"],
      ⟨videoQueue, rfl⟩,
      .cons ⟨trivial, rfl⟩ (.cons ⟨trivial, rfl⟩ (.cons ⟨trivial, rfl⟩
      (.cons ⟨fun _ _ _ _ _ _ => ⟨nofun, nofun⟩, rfl⟩ (.cons ⟨trivial, rfl⟩
      (.cons ⟨trivial, rfl⟩ (.cons ⟨trivial, rfl⟩ (.cons ⟨trivial, rfl⟩ (.cons ⟨trivial, rfl⟩
      (.cons ⟨trivial, rfl⟩ (.cons ⟨trivial, rfl⟩ (.cons ⟨trivial, rfl⟩ (.cons ⟨trivial, rfl⟩
      (.cons ⟨trivial, rfl⟩ (.cons ⟨fun _ _ _ _ _ _ => ⟨nofun, nofun⟩, rfl⟩
        (.nil _)))))))))))))))⟩
  exact ⟨_, _, _, reachable, rfl, rfl, rfl,
    request_cancel_reaches_unfinished .verbatim .oneSlot reachable
      (show (bucket _ ("second", "video")).get? "task" = some _ from rfl) rfl nofun⟩

/-- The provider of a claimed task changes: the task is claimed again for the
new provider while its done execution is still in the table, and
`request_cancel` finds only that one. -/
theorem request_cancel_misses_reclaimed : ∃ worker occupant execution,
      (system .verbatim .oneSlot).Reachable worker ∧
      (worker.occupancy.slots.bucket ("second", "video")).get? "task" = some occupant ∧
      worker.occupancy.executions[occupant.task]? = some execution ∧
      execution.phase = .running ∧
      (worker.occupancy.requestCancel "task").2 = false ∧
      (worker.occupancy.requestCancel "task").1.executions[occupant.task]? =
        some execution ∧ execution.cancelRequested = false := by
  exact ⟨_, _, _, reachable_of_events videoQueue
    [.beginClaims, .claimNext 2, .claimNext 3, .route 4 "first", .start 0,
      .providerChanged 5 0 "second", .finish 0, .claimNext 6,
      .route 7 "second", .start 1] rfl, rfl, rfl, rfl, rfl, rfl, rfl⟩

end GenerationWorker

end MatrixSpooll.Worker
