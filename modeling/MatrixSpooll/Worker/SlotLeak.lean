import MatrixSpooll.Worker.Schedule

/-!
# Done executions leave the slot table

A drain removes the done inflight occupants and leaves pending ones alone.  A
resume execution is pending until its own coroutine promotes it, and it leaves
the table in its `finally`.  A cancellation before its first step skips both,
so its occupant stays pending for ever.  Along every run in which no resume
execution is cancelled that early, nothing done is left after a drain.
-/

namespace MatrixSpooll.Worker

open Library Queue SlotTable Occupancy

namespace Occupancy

/-- `request_cancel` does not hit a resume execution before its first step. -/
def CancelsStarted (state : Occupancy) (taskId : String) : Prop :=
  ∀ future execution, state.slots.findByTask taskId = some future →
    state.executions[future]? = some execution →
    execution.dispatch.isSome = true → execution.phase ≠ .created

/-- The execution behind an occupant: it knows its place in the table, and a
resume execution that is done is not in the table. -/
structure Backs (execution : Execution) (key : BucketKey) (taskId : String)
    (pending : Bool) : Prop where
  taskEq : execution.taskId = taskId
  keyEq : execution.key = key
  unfinished : execution.dispatch.isSome = true → execution.phase ≠ .done
  resumed : pending = true → execution.dispatch.isSome = true

structure Tracked (state : Occupancy) : Prop where
  uncancelled : ∀ (future : Nat) execution, state.executions[future]? = some execution →
    execution.dispatch.isSome = true → execution.phase = .created →
    execution.cancelRequested = false
  backed : ∀ key taskId occupant, (state.slots.bucket key).get? taskId = some occupant →
    ∃ execution, state.executions[occupant.task]? = some execution ∧
      Backs execution key taskId occupant.pending

theorem tracked_empty : empty.Tracked := by
  refine { uncancelled := ?_, backed := ?_ }
  · intro future execution found
    simp [empty] at found
  · intro key taskId occupant found
    cases found

variable {state : Occupancy}

theorem Tracked.spawn (tracked : state.Tracked) {execution : Execution}
    {pending : Bool} (created : execution.phase = .created)
    (uncancelled : execution.cancelRequested = false)
    (resumed : pending = true → execution.dispatch.isSome = true) :
    (state.spawn execution pending).Tracked := by
  refine { uncancelled := ?_, backed := ?_ }
  · intro future other found
    rw [getElem?_spawn] at found
    split at found
    · cases found
      intro _ _
      exact uncancelled
    · exact tracked.uncancelled future other found
  · intro key taskId occupant found
    change ((state.slots.register execution.key execution.taskId _).bucket
      key).get? taskId = some occupant at found
    rw [bucket_register] at found
    have old : (state.slots.bucket key).get? taskId = some occupant →
        ∃ backing, (state.spawn execution pending).executions[occupant.task]? =
          some backing ∧ Backs backing key taskId occupant.pending := by
      intro earlier
      obtain ⟨backing, stored, backs⟩ := tracked.backed key taskId occupant earlier
      refine ⟨backing, ?_, backs⟩
      have inside : occupant.task < state.executions.length :=
        (List.getElem?_eq_some_iff.mp stored).1
      rw [getElem?_spawn, if_neg (by omega)]
      exact stored
    by_cases sameKey : key = execution.key
    · subst sameKey
      rw [if_pos rfl, Dict.get?_put] at found
      by_cases sameTask : taskId = execution.taskId
      · subst sameTask
        rw [if_pos rfl] at found
        cases found
        refine ⟨execution, by rw [getElem?_spawn, if_pos rfl], ?_⟩
        refine { taskEq := rfl, keyEq := rfl, unfinished := ?_, resumed := resumed }
        intro _
        rw [created]
        simp
      · rw [if_neg sameTask] at found
        exact old found
    · rw [if_neg sameKey] at found
      exact old found

variable {after : Occupancy} {future : Nat}

/-- The later table has no occupants but old ones, possibly promoted. -/
def Fewer (before after : SlotTable) : Prop :=
  ∀ key taskId occupant, (after.bucket key).get? taskId = some occupant →
    ∃ pending, (before.bucket key).get? taskId =
      some { task := occupant.task, pending := pending } ∧
      (occupant.pending = true → pending = true)

theorem fewer_refl (table : SlotTable) : Fewer table table :=
  fun _ _ occupant stored => ⟨occupant.pending, stored, id⟩

section

variable (table : SlotTable) (key : BucketKey) (taskId : String)

theorem fewer_release : Fewer table (table.release key taskId) := by
  intro other wanted occupant stored
  rw [get?_release] at stored
  split at stored
  · cases stored
  · exact ⟨occupant.pending, stored, id⟩

theorem fewer_promote : Fewer table (table.promote key taskId) := by
  intro other wanted occupant stored
  rw [get?_promote] at stored
  split at stored
  · obtain ⟨old, earlier, same⟩ := Option.map_eq_some_iff.mp stored
    subst same
    refine ⟨old.pending, earlier, ?_⟩
    intro impossible
    cases impossible
  · exact ⟨occupant.pending, stored, id⟩

end

variable {before : Execution}

section

variable (tracked : state.Tracked)
include tracked

/-- One execution changes its phase or its cancel flag, the table loses
occupants or promotes them. -/
theorem Tracked.advance {changed : Execution} (found : state.executions[future]? = some before)
    (executions : after.executions = state.executions.set future changed)
    (sameTask : changed.taskId = before.taskId) (sameKey : changed.key = before.key)
    (sameDispatch : changed.dispatch = before.dispatch)
    (early : changed.dispatch.isSome = true → changed.phase = .created →
      changed.cancelRequested = false) (fewer : Fewer state.slots after.slots)
    (ended : changed.dispatch.isSome = true → changed.phase = .done →
      (after.slots.bucket before.key).get? before.taskId = none) :
    after.Tracked := by
  have lookup : ∀ other : Nat, after.executions[other]? =
      if other = future then some changed else state.executions[other]? := by
    intro other
    rw [executions]
    exact getElem?_setExecution found changed other
  refine { uncancelled := ?_, backed := ?_ }
  · intro other execution stored
    rw [lookup] at stored
    split at stored
    · cases stored
      exact early
    · exact tracked.uncancelled other execution stored
  · intro key taskId occupant stored
    obtain ⟨pending, earlier, pendingBefore⟩ := fewer key taskId occupant stored
    obtain ⟨backing, backingFound, backs⟩ := tracked.backed key taskId _ earlier
    by_cases same : occupant.task = future
    · have isBefore : backing = before := by
        change state.executions[occupant.task]? = some backing at backingFound
        rw [same, found] at backingFound
        exact (Option.some.inj backingFound).symm
      subst isBefore
      refine ⟨changed, by rw [lookup, if_pos same], ?_⟩
      refine
        { taskEq := sameTask.trans backs.taskEq
          keyEq := sameKey.trans backs.keyEq
          unfinished := ?_
          resumed := ?_ }
      · intro resumed done
        have gone := ended resumed done
        rw [backs.keyEq, backs.taskEq, stored] at gone
        cases gone
      · intro isPending
        rw [sameDispatch]
        exact backs.resumed (pendingBefore isPending)
    · refine ⟨backing, by rw [lookup, if_neg same]; exact backingFound, ?_⟩
      exact { backs with
        resumed := fun isPending => backs.resumed (pendingBefore isPending) }

theorem Tracked.setPhase (found : state.executions[future]? = some before)
    {phase : Phase} (between : before.dispatch.isSome = true → phase ≠ .created ∧ phase ≠ .done) :
    (state.setExecution future { before with phase := phase }).Tracked := by
  refine tracked.advance found rfl rfl rfl rfl ?_ (fewer_refl _) ?_
  · intro resumed created
    exact absurd created (between resumed).1
  · intro resumed done
    exact absurd done (between resumed).2

theorem Tracked.start (result : state.start future = some after) : after.Tracked := by
  obtain ⟨execution, found, created, cases⟩ := start_cases result
  have free := tracked.uncancelled future execution found
  rcases cases with ⟨cancelled, same⟩ | ⟨_, _, same⟩ | ⟨_, _, same⟩
  · subst same
    apply tracked.setPhase found
    intro resumed
    rw [free resumed created] at cancelled
    cases cancelled
  all_goals
    subst same
    exact tracked.setPhase found (by simp)

theorem Tracked.acquire (result : state.acquire future = some after) : after.Tracked := by
  obtain ⟨execution, index, dispatch, found, _, _, _, _, same⟩ := acquire_cases result
  subst same
  refine tracked.advance found rfl rfl rfl rfl ?_ ?_ ?_
  · intro _ impossible
    cases impossible
  · exact fewer_promote _ _ _
  · intro _ impossible
    cases impossible

theorem Tracked.leave (result : state.leave future = some after) : after.Tracked := by
  obtain ⟨execution, found, _, _, same⟩ := leave_cases result
  subst same
  exact tracked.setPhase found (by simp)

theorem Tracked.finish (result : state.finish future = some after) : after.Tracked := by
  obtain ⟨execution, found, cases⟩ := finish_cases result
  rcases cases with ⟨claimed, same⟩ | ⟨index, dispatch, _, _, _, same⟩ | ⟨index, _, _, same⟩
  · subst same
    apply tracked.setPhase found
    intro resumed
    rw [claimed] at resumed
    cases resumed
  all_goals
    subst same
    refine tracked.advance found rfl rfl rfl rfl ?_ (fewer_release _ _ _) ?_
    · intro _ impossible
      cases impossible
    · intro _ _
      exact (get?_release _ _ _ _ _).trans (if_pos ⟨rfl, rfl⟩)

theorem Tracked.requestCancel {taskId : String} (started : state.CancelsStarted taskId) :
    (state.requestCancel taskId).1.Tracked := by
  rcases requestCancel_cases state taskId with
    same | ⟨future, execution, holder, found, unfinished, same⟩
  · rw [same]
    exact tracked
  · rw [same]
    refine tracked.advance found rfl rfl rfl rfl ?_ (fewer_refl _) ?_
    · intro resumed created
      exact absurd created (started future execution holder found resumed)
    · intro _ done
      exact absurd done unfinished

theorem Tracked.drain : state.drain.Tracked := by
  refine { uncancelled := tracked.uncancelled, backed := ?_ }
  intro key taskId occupant stored
  change (((state.slots.drainFinished state.isDone).1).bucket key).get?
    taskId = some occupant at stored
  rw [get?_drainFinished, Option.filter_eq_some_iff] at stored
  exact tracked.backed key taskId occupant stored.1

theorem Tracked.drained {key : BucketKey} {taskId : String} {occupant : Occupant}
    (stored : (state.drain.slots.bucket key).get? taskId = some occupant) :
    state.drain.isDone occupant.task = false := by
  change (((state.slots.drainFinished state.isDone).1).bucket key).get?
    taskId = some occupant at stored
  rw [get?_drainFinished, Option.filter_eq_some_iff] at stored
  obtain ⟨earlier, kept⟩ := stored
  change state.isDone occupant.task = false
  cases isPending : occupant.pending with
  | false => simpa [isPending] using kept
  | true =>
    obtain ⟨execution, found, backs⟩ := tracked.backed key taskId occupant earlier
    have unfinished := backs.unfinished (backs.resumed isPending)
    simp [isDone, found, unfinished]

end

end Occupancy

namespace GenerationWorker

/-- No resume execution is cancelled before its first step. -/
def cancelsStarted : Rules :=
  { enrol := fun _ _ _ => True
    dispatch := fun _ _ _ => True
    cancel := CancelsStarted }

theorem tracked_preserved (capacity : CapacityTable) :
    Preserved capacity cancelsStarted Tracked := by
  refine
    { initially := tracked_empty
      enrol := ?_
      dispatch := ?_
      start := fun _ _ _ tracked result => tracked.start result
      acquire := fun _ _ _ tracked result => tracked.acquire result
      leave := fun _ _ _ tracked result => tracked.leave result
      finish := fun _ _ _ tracked result => tracked.finish result
      cancel := fun _ _ tracked started => tracked.requestCancel started
      drain := fun _ tracked => tracked.drain }
  · intro state key taskId tracked _ _
    apply tracked.spawn rfl rfl
    intro impossible
    cases impossible
  · intro state provider taskIds tracked _ _
    apply dispatchBucket_loop (fun _ => Tracked)
    · exact { uncancelled := tracked.uncancelled, backed := tracked.backed }
    · intro taskId _ current held
      apply held.spawn rfl rfl
      intro _
      rfl

/-- Along every run in which no resume execution is cancelled before its first
step, every execution that is in the table after a drain is unfinished. -/
theorem drained_slots_unfinished (text : FailureText)
    (capacity : CapacityTable) {worker after : GenerationWorker}
    (reachable : ((system text capacity).restrict
      (Allows capacity cancelsStarted)).Reachable worker)
    (drained : worker.next text capacity .drain = some after)
    {key : BucketKey} {taskId : String} {occupant : Occupant}
    (stored : (after.occupancy.slots.bucket key).get? taskId = some occupant) :
    after.occupancy.isDone occupant.task = false := by
  have tracked := (tracked_preserved capacity).invariant.reachable reachable
  simp only [next] at drained
  split at drained <;> cases drained
  exact tracked.drained stored

/-- A video task that a previous process left running. -/
def orphanQueue : TaskQueue :=
  TaskQueue.empty.runAny .verbatim
    [.call (.enqueue 1 "orphan" (.plain "video" "project" "shot" none)),
      .call (.claimNext 2 "video" [] [])]

/-- A queue with an orphan and a waiting task of the same provider. -/
def contendedQueue : TaskQueue :=
  orphanQueue.runAny .verbatim [.call (.enqueue 3 "clip" (.plain "video" "project" "clip" none))]

/-- The claimed clip is done and leaves the table with the drain; the orphan,
cancelled while it waits for its permit, is still to end and stays. -/
theorem dispatched_orphan_unfinished : ∃ worker after finished occupant execution,
      ((system .verbatim .oneSlot).restrict (Allows .oneSlot cancelsStarted)).Reachable worker ∧
      (worker.occupancy.slots.bucket ("provider", "video")).get? "clip" = some finished ∧
      worker.occupancy.isDone finished.task = true ∧
      worker.next .verbatim .oneSlot .drain = some after ∧
      (after.occupancy.slots.bucket ("provider", "video")).get? "clip" = none ∧
      (after.occupancy.slots.bucket ("provider", "video")).get? "orphan" = some occupant ∧
      after.occupancy.executions[occupant.task]? = some execution ∧
      execution.cancelRequested = true ∧
      after.occupancy.isDone occupant.task = false := by
  have reachable : ((system .verbatim .oneSlot).restrict
      (Allows .oneSlot cancelsStarted)).Reachable _ :=
    ⟨onQueue contendedQueue, [.scanOrphans [("provider", ["orphan"])],
        .beginClaims, .claimNext 4, .claimNext 5, .route 6 "provider", .claimNext 7,
        .claimNext 8, .claimNext 9, .dispatchBucket "provider" ["orphan"],
        .start 0, .start 1, .finish 0, .requestCancel "orphan"],
      ⟨contendedQueue, rfl⟩,
      .cons ⟨trivial, rfl⟩ (.cons ⟨trivial, rfl⟩ (.cons ⟨trivial, rfl⟩ (.cons ⟨trivial, rfl⟩
      (.cons ⟨fun _ _ _ _ _ _ => trivial, rfl⟩ (.cons ⟨trivial, rfl⟩ (.cons ⟨trivial, rfl⟩
      (.cons ⟨trivial, rfl⟩ (.cons ⟨fun _ => trivial, rfl⟩ (.cons ⟨trivial, rfl⟩
      (.cons ⟨trivial, rfl⟩ (.cons ⟨trivial, rfl⟩ (.cons ⟨by
        intro future execution holder found _
        cases holder
        cases found
        nofun, rfl⟩ (.nil _)))))))))))))⟩
  exact ⟨_, _, _, _, _, reachable, rfl, rfl, rfl, rfl, rfl, rfl, rfl,
    drained_slots_unfinished .verbatim .oneSlot reachable rfl
      (show (bucket _ ("provider", "video")).get? "orphan" = some _ from rfl)⟩

/-- The orphan is cancelled between its registration and its first step: its
execution is done, and no drain ever removes it. -/
theorem cancelled_orphan_never_drained :
    ∃ worker after occupant, (system .verbatim .oneSlot).Reachable worker ∧
      worker.next .verbatim .oneSlot .drain = some after ∧
      (after.occupancy.slots.bucket ("provider", "video")).get? "orphan" = some occupant ∧
      after.occupancy.isDone occupant.task = true ∧
      after.next .verbatim .oneSlot .drain = some after := by
  exact ⟨_, _, _, reachable_of_events orphanQueue [.scanOrphans [("provider", ["orphan"])],
      .dispatchBucket "provider" ["orphan"],
      .requestCancel "orphan",
      .start 0] rfl, rfl, rfl, rfl, rfl⟩

end GenerationWorker

end MatrixSpooll.Worker
