import MatrixSpooll.Library.Counting
import MatrixSpooll.Worker.SlotLeak

/-!
# Capacity of a bucket

Two mechanisms limit the executions of a bucket: `has_room` when a task is
claimed, and the semaphore of each resume dispatch.  The semaphore starts with
the full capacity whatever already runs in the bucket, so claimed and resumed
executions together can exceed it.

`claimedLoad` and `dispatchLoad` bound what can run in a bucket at once.  As
long as every dispatch fits on top of them, or fits into the free slots of its
bucket, the capacity is respected in every reachable state.
-/

namespace MatrixSpooll.Worker

open Library Queue List Option

namespace Occupancy

open SlotTable

variable (state : Occupancy) (index : Nat) (key : BucketKey)

/-- Registered executions of a bucket that are neither pending nor done. -/
def activeIn : Nat :=
  (state.slots.bucket key).rows.countP (fun row =>
    !row.2.pending && !state.isDone row.2.task)

def claimedUnfinished (future : Nat) : Bool :=
  match state.executions[future]? with
  | some execution => execution.dispatch.isNone && (execution.phase ≠ .done)
  | none => false

/-- Unfinished claimed executions of a bucket. -/
def claimedLoad : Nat :=
  (state.slots.bucket key).rows.countP (fun row => state.claimedUnfinished row.2.task)

def unfinishedOf : Nat :=
  state.executions.countP (fun execution =>
    (execution.dispatch = some index) && (execution.phase ≠ .done))

def runningOf : Nat :=
  state.executions.countP (fun execution =>
    (execution.dispatch = some index) && (execution.phase = .running))

/-- The dispatches that work on a bucket. -/
def serving : Finset Nat :=
  (Finset.range state.dispatches.length).filter (fun index =>
    (state.dispatches[index]?).map (fun dispatch =>
      (dispatch.provider, "video")) = some key)

/-- The bucket that a dispatch works on. -/
def bucketOf : Option BucketKey :=
  (state.dispatches[index]?).map (fun dispatch => (dispatch.provider, "video"))

/-- What the dispatches of a bucket can run at once. -/
def dispatchLoad (limit : Nat) : Nat :=
  ∑ index ∈ state.serving key, min (state.unfinishedOf index) limit

/-- The new sub-tasks of a dispatch fit into the free slots of the bucket, or
on top of everything that can run in it at once. -/
def DispatchFits (capacity : CapacityTable) (state : Occupancy)
    (provider : String) (taskIds : List String) : Prop :=
  (state.slots.bucket (provider, "video")).rows.length + taskIds.length ≤
      capacity.get provider "video" ∨
    state.claimedLoad (provider, "video") +
        state.dispatchLoad (provider, "video") (capacity.get provider "video") +
        min taskIds.length (capacity.get provider "video") ≤
      capacity.get provider "video"

/-- A running resume execution of the task in the bucket. -/
def Promoter (taskId : String) : Prop :=
  ∃ (future : Nat) (execution : Execution), state.executions[future]? = some execution ∧
    execution.dispatch.isSome = true ∧ execution.phase = .running ∧
    execution.key = key ∧ execution.taskId = taskId

/-- The semaphores account for the running resume executions, and those for
the promoted occupants. -/
structure Accounted (capacity : CapacityTable) (state : Occupancy) : Prop where
  registered : ∀ key taskId occupant, (state.slots.bucket key).get? taskId = some occupant →
    occupant.task < state.executions.length
  identified : ∀ (future : Nat) execution index, state.executions[future]? = some execution →
    execution.dispatch = some index →
    state.bucketOf index = some execution.key
  permitted : ∀ (index : Nat) dispatch, state.dispatches[index]? = some dispatch →
    state.runningOf index + dispatch.permits = capacity.get dispatch.provider "video"
  promoted : ∀ key taskId occupant, (state.slots.bucket key).get? taskId = some occupant →
    occupant.pending = false →
    (∃ execution, state.executions[occupant.task]? = some execution ∧
      execution.dispatch.isSome = true) →
    state.Promoter key taskId

structure Bounded (capacity : CapacityTable) (state : Occupancy) : Prop
    extends state.Accounted capacity where
  fits : ∀ key, (state.slots.bucket key).rows.length ≤ capacity.get key.1 key.2 ∨
    state.claimedLoad key + state.dispatchLoad key
      (capacity.get key.1 key.2) ≤ capacity.get key.1 key.2

theorem bounded_empty (capacity : CapacityTable) : empty.Bounded capacity := by
  refine ⟨⟨nofun, ?_, ?_, nofun⟩, fun key => .inl (Nat.zero_le _)⟩
  · intro future execution index found
    simp [empty] at found
  · intro index dispatch found
    simp [empty] at found

/-! ## The bound -/

theorem runningOf_le_unfinishedOf (index : Nat) :
    state.runningOf index ≤ state.unfinishedOf index := by
  apply countP_mono_left
  intro execution _ running
  simp only [Bool.and_eq_true, decide_eq_true_eq] at running ⊢
  refine ⟨running.1, ?_⟩
  rw [running.2]
  simp

variable {capacity : CapacityTable} {state : Occupancy}

theorem mem_serving {key : BucketKey} {index : Nat} :
    index ∈ state.serving key ↔ state.bucketOf index = some key := by
  unfold serving bucketOf
  rw [Finset.mem_filter, Finset.mem_range]
  constructor
  · intro both
    exact both.2
  · intro served
    obtain ⟨dispatch, found, _⟩ := map_eq_some_iff.mp served
    exact ⟨(List.getElem?_eq_some_iff.mp found).1, served⟩

section

variable (bounded : state.Bounded capacity) (key : BucketKey)
include bounded

/-- The running resume executions of a bucket are those of its dispatches. -/
theorem running_le_dispatchLoad : state.executions.countP (fun execution =>
        execution.dispatch.isSome && (execution.phase = .running) && (execution.key = key)) ≤
      state.dispatchLoad key (capacity.get key.1 key.2) := by
  refine (countP_le_sum_groups (state.serving key)
    (fun index execution => (execution.dispatch = some index) &&
      (execution.phase = .running)) ?_).trans ?_
  · intro execution member running
    simp only [Bool.and_eq_true, decide_eq_true_eq] at running
    obtain ⟨⟨resumed, isRunning⟩, sameKey⟩ := running
    obtain ⟨index, dispatched⟩ := isSome_iff_exists.mp resumed
    obtain ⟨future, found⟩ := getElem?_of_mem member
    have served := bounded.identified future execution index found dispatched
    rw [sameKey] at served
    exact ⟨index, mem_serving.mpr served, by simp [dispatched, isRunning]⟩
  · apply Finset.sum_le_sum
    intro index member
    obtain ⟨dispatch, found, sameKey⟩ := map_eq_some_iff.mp (mem_serving.mp member)
    have permits := bounded.permitted index dispatch found
    subst sameKey
    apply Nat.le_min.mpr
    constructor
    · exact state.runningOf_le_unfinishedOf index
    · change state.runningOf index ≤ capacity.get dispatch.provider "video"
      omega

theorem activeIn_le_load : state.activeIn key ≤ state.claimedLoad key +
      state.dispatchLoad key (capacity.get key.1 key.2) := by
  -- an active occupant is claimed, or it was promoted by a running execution
  have split : state.activeIn key ≤ state.claimedLoad key +
      (state.slots.bucket key).rows.countP (fun row =>
        !row.2.pending && !state.claimedUnfinished row.2.task && !state.isDone row.2.task) := by
    apply countP_le_add
    intro row _ active
    simp only [Bool.and_eq_true, Bool.not_eq_true'] at active
    cases claimed : state.claimedUnfinished row.2.task with
    | true => exact .inl rfl
    | false => exact .inr (by simp [active.1, active.2])
  have resumed : (state.slots.bucket key).rows.countP (fun row =>
        !row.2.pending && !state.claimedUnfinished row.2.task && !state.isDone row.2.task) ≤
      state.executions.countP (fun execution =>
        execution.dispatch.isSome && (execution.phase = .running) && (execution.key = key)) := by
    apply countP_le_of_names Prod.fst Execution.taskId (state.slots.bucket key).keysNodup
    intro row member active
    simp only [Bool.and_eq_true, Bool.not_eq_true'] at active
    obtain ⟨⟨notPending, notClaimed⟩, notDone⟩ := active
    have stored : (state.slots.bucket key).get? row.1 = some row.2 :=
      Dict.get?_eq_some_iff.mpr member
    have inside := bounded.registered key row.1 row.2 stored
    have found := getElem?_eq_getElem inside
    have isResumed : (state.executions[row.2.task]).dispatch.isSome = true := by
      simp only [claimedUnfinished, isDone, found] at notClaimed notDone
      rw [isSome_iff_ne_none]
      intro isClaimed
      simp only [isClaimed, isNone_none, Bool.true_and,
        decide_eq_false_iff_not, not_not] at notClaimed
      simp [notClaimed] at notDone
    obtain ⟨future, execution, running, dispatched, phase, sameKey,
      sameTask⟩ := bounded.promoted key row.1 row.2 stored notPending ⟨_, found, isResumed⟩
    refine ⟨execution, mem_of_getElem? running, ?_, sameTask⟩
    simp [dispatched, phase, sameKey]
  have running := running_le_dispatchLoad bounded key
  omega

theorem Bounded.activeIn_le : state.activeIn key ≤ capacity.get key.1 key.2 := by
  rcases bounded.fits key with room | load
  · exact Nat.le_trans countP_le_length room
  · exact Nat.le_trans (activeIn_le_load bounded key) load

end

/-! ## What keeps the bound -/

/-- Operations on the table that only take occupants out or promote them. -/
structure Shrinks (before after : SlotTable) : Prop where
  kept : ∀ key taskId occupant, (after.bucket key).get? taskId = some occupant →
    ∃ pending, (before.bucket key).get? taskId = some { task := occupant.task, pending := pending }
  counts : ∀ key (test : Nat → Bool), (after.bucket key).rows.countP (fun row => test row.2.task) ≤
      (before.bucket key).rows.countP (fun row => test row.2.task)

variable (table : SlotTable) (key : BucketKey)

theorem Shrinks.refl : Shrinks table table :=
  { kept := fun _ _ occupant stored => ⟨occupant.pending, stored⟩
    counts := fun _ _ => Nat.le_refl _ }

theorem Shrinks.length_le {before after : SlotTable}
    (shrinks : Shrinks before after) (key : BucketKey) :
    (after.bucket key).rows.length ≤ (before.bucket key).rows.length := by
  have counts := shrinks.counts key (fun _ => true)
  simpa using counts

theorem shrinks_promote (taskId : String) : Shrinks table (table.promote key taskId) := by
  refine { kept := ?_, counts := ?_ }
  · intro other wanted occupant stored
    obtain ⟨pending, earlier, _⟩ := fewer_promote _ _ _ _ _ _ stored
    exact ⟨pending, earlier⟩
  · intro other test
    rw [bucket_promote]
    split
    · rename_i same
      subst same
      rw [Dict.rows_mapValues, countP_map]
      apply countP_mono_left
      intro row _ holds
      simp only [Function.comp_apply] at holds
      split at holds <;> exact holds
    · exact Nat.le_refl _

theorem shrinks_release (taskId : String) : Shrinks table (table.release key taskId) := by
  refine { kept := ?_, counts := ?_ }
  · intro other wanted occupant stored
    obtain ⟨pending, earlier, _⟩ := fewer_release _ _ _ _ _ _ stored
    exact ⟨pending, earlier⟩
  · intro other test
    rw [bucket_release]
    split
    · rename_i same
      subst same
      exact Sublist.countP_le filter_sublist
    · exact Nat.le_refl _

theorem shrinks_drainFinished (done : Nat → Bool) : Shrinks table (table.drainFinished done).1 := by
  refine { kept := ?_, counts := ?_ }
  · intro key taskId occupant stored
    rw [get?_drainFinished, filter_eq_some_iff] at stored
    exact ⟨occupant.pending, stored.1⟩
  · intro key test
    rw [bucket_drainFinished]
    exact Sublist.countP_le filter_sublist

variable {key : BucketKey} {after : Occupancy}

/-- Nothing new can run when the table shrinks and no execution comes back. -/
theorem fits_of_shrinks (bounded : state.Bounded capacity)
    (shrinks : Shrinks state.slots after.slots)
    (claimed : ∀ future, after.claimedUnfinished future = true →
      state.claimedUnfinished future = true)
    (unfinished : ∀ index, after.unfinishedOf index ≤ state.unfinishedOf index)
    (served : after.bucketOf = state.bucketOf) (key : BucketKey) :
    (after.slots.bucket key).rows.length ≤ capacity.get key.1 key.2 ∨
      after.claimedLoad key + after.dispatchLoad key
        (capacity.get key.1 key.2) ≤ capacity.get key.1 key.2 := by
  rcases bounded.fits key with room | load
  · exact .inl (Nat.le_trans (shrinks.length_le key) room)
  · right
    have claimedLe : after.claimedLoad key ≤ state.claimedLoad key := by
      refine Nat.le_trans ?_ (shrinks.counts key state.claimedUnfinished)
      apply countP_mono_left
      intro row _ holds
      exact claimed row.2.task holds
    have dispatchLe : after.dispatchLoad key (capacity.get key.1 key.2) ≤
        state.dispatchLoad key (capacity.get key.1 key.2) := by
      have sameServing : after.serving key = state.serving key := by
        ext index
        rw [mem_serving, mem_serving, served]
      unfold dispatchLoad
      rw [sameServing]
      apply Finset.sum_le_sum
      intro index _
      exact min_le_min_right _ (unfinished index)
    omega

variable {future : Nat} {before : Execution} {phase : Phase} {signalled : Bool} {taskId : String}

section

variable (found : state.executions[future]? = some before)
  (executions : after.executions = state.executions.set future
    { before with phase := phase, cancelRequested := signalled })
include found executions

theorem Bounded.advance (bounded : state.Bounded capacity)
    (ended : before.phase = .done → phase = .done)
    (shrinks : Shrinks state.slots after.slots) (served : after.bucketOf = state.bucketOf)
    (permitted : ∀ (index : Nat) dispatch, after.dispatches[index]? = some dispatch →
      after.runningOf index + dispatch.permits = capacity.get dispatch.provider "video")
    (promoted : ∀ key taskId occupant, (after.slots.bucket key).get? taskId = some occupant →
      occupant.pending = false → after.Promoter key taskId ∨
        (state.slots.bucket key).get? taskId = some occupant ∧
          (state.Promoter key taskId → after.Promoter key taskId)) : after.Bounded capacity := by
  have oldExecution : ∀ (other : Nat) execution, after.executions[other]? = some execution →
      ∃ old, state.executions[other]? = some old ∧
        old.key = execution.key ∧ old.dispatch = execution.dispatch ∧
        (old.phase = .done → execution.phase = .done) := by
    intro other execution stored
    rw [executions, getElem?_set_found found] at stored
    split at stored
    · rename_i same
      cases stored
      rw [same]
      exact ⟨before, found, rfl, rfl, ended⟩
    · exact ⟨execution, stored, rfl, rfl, id⟩
  refine
    { registered := ?_
      identified := ?_
      permitted := permitted
      promoted := ?_
      fits := ?_ }
  · intro key taskId occupant stored
    obtain ⟨pending, earlier⟩ := shrinks.kept key taskId occupant stored
    have inside := bounded.registered key taskId _ earlier
    rw [executions, length_set]
    exact inside
  · intro other execution index stored dispatched
    obtain ⟨old, oldFound, oldKey, oldDispatch, _⟩ := oldExecution other execution stored
    rw [served, ← oldKey]
    exact bounded.identified other old index oldFound (oldDispatch.trans dispatched)
  · intro key taskId occupant stored notPending resumed
    rcases promoted key taskId occupant stored notPending with now | ⟨earlier, stays⟩
    · exact now
    · obtain ⟨execution, executionFound, isResumed⟩ := resumed
      obtain ⟨old, oldFound, _, oldDispatch, _⟩ := oldExecution _ execution executionFound
      apply stays
      apply bounded.promoted key taskId occupant earlier notPending
      exact ⟨old, oldFound, oldDispatch ▸ isResumed⟩
  · apply fits_of_shrinks bounded shrinks _ _ served
    · intro other claimed
      unfold claimedUnfinished at claimed ⊢
      cases stored : after.executions[other]? with
      | none => simp [stored] at claimed
      | some execution =>
        obtain ⟨old, oldFound, _, oldDispatch, oldEnded⟩ := oldExecution other execution stored
        simp only [stored, Bool.and_eq_true, decide_eq_true_eq] at claimed
        simp only [oldFound, Bool.and_eq_true, decide_eq_true_eq]
        refine ⟨oldDispatch ▸ claimed.1, ?_⟩
        intro done
        exact claimed.2 (oldEnded done)
    · intro index
      unfold unfinishedOf
      rw [executions]
      apply countP_set_le found
      intro holds
      simp only [Bool.and_eq_true, decide_eq_true_eq] at holds ⊢
      refine ⟨holds.1, ?_⟩
      intro done
      exact holds.2 (ended done)

theorem Promoter.advance (promoter : state.Promoter key taskId)
    (continues : before.dispatch.isSome = true → before.phase = .running →
      before.key = key → before.taskId = taskId → phase = .running) :
    after.Promoter key taskId := by
  obtain ⟨other, execution, stored, resumed, running, sameKey, sameTask⟩ := promoter
  unfold Promoter
  simp only [executions, getElem?_set_found found]
  by_cases same : other = future
  · rw [same, found] at stored
    cases stored
    exact ⟨other, _, if_pos same, resumed, continues resumed running sameKey sameTask,
      sameKey, sameTask⟩
  · exact ⟨other, execution, (if_neg same).trans stored, resumed, running, sameKey, sameTask⟩

theorem runningOf_set (keeps : before.dispatch.isSome = true →
      (phase = .running ↔ before.phase = .running)) (index : Nat) :
    after.runningOf index = state.runningOf index := by
  unfold runningOf
  rw [executions]
  refine Nat.add_right_cancel ((countP_set_eq found _ _).trans ?_)
  cases isResumed : before.dispatch with
  | none => rfl
  | some own =>
    have phases := keeps (by rw [isResumed]; rfl)
    simp only [phases]

end

section

variable (bounded : state.Bounded capacity)
include bounded

theorem Bounded.setExecution (found : state.executions[future]? = some before)
    (ended : before.phase = .done → phase = .done)
    (keeps : before.dispatch.isSome = true → (phase = .running ↔ before.phase = .running)) :
    (state.setExecution future
      { before with phase := phase, cancelRequested := signalled }).Bounded capacity := by
  refine bounded.advance found rfl ended (.refl _) rfl ?_ ?_
  · intro index dispatch dispatched
    rw [runningOf_set found rfl keeps]
    exact bounded.permitted index dispatch dispatched
  · intro key taskId _ stored _
    exact .inr ⟨stored, fun promoter => promoter.advance found rfl
      fun resumed running _ _ => (keeps resumed).mpr running⟩

theorem Bounded.start (result : state.start future = some after) : after.Bounded capacity := by
  obtain ⟨execution, found, created, cases⟩ := start_cases result
  rcases cases with ⟨_, same⟩ | ⟨_, claimed, same⟩ | ⟨_, _, same⟩
  all_goals
    subst same
    refine bounded.setExecution found (by simp [created]) ?_
  · simp [created]
  · simp [claimed]
  · simp [created]

theorem Bounded.leave (result : state.leave future = some after) : after.Bounded capacity := by
  obtain ⟨execution, found, claimed, running, same⟩ := leave_cases result
  subst same
  refine bounded.setExecution found ?_ ?_
  · simp [running]
  · simp [claimed]

theorem Bounded.requestCancel (taskId : String) :
    (state.requestCancel taskId).1.Bounded capacity := by
  rcases requestCancel_cases state taskId with
    same | ⟨future, execution, _, found, _, same⟩
  · rw [same]
    exact bounded
  · rw [same]
    exact bounded.setExecution found id (fun _ => Iff.rfl)

/-- A permit moves between a semaphore and one of its executions. -/
theorem Bounded.movePermit (permits : Nat) {index : Nat} {dispatch : Dispatch}
    (found : state.executions[future]? = some before)
    (executions : after.executions = state.executions.set future
      { before with phase := phase, cancelRequested := signalled })
    (resumed : before.dispatch = some index) (dispatched : state.dispatches[index]? = some dispatch)
    (dispatches : after.dispatches = (state.setPermits index permits).dispatches)
    (balance : (if phase = .running then 1 else 0) + permits =
      (if before.phase = .running then 1 else 0) + dispatch.permits) :
    after.bucketOf = state.bucketOf ∧
    (∀ (other : Nat) served, after.dispatches[other]? = some served →
      after.runningOf other + served.permits = capacity.get served.provider "video") := by
  have lookup : ∀ other : Nat, (state.setPermits index permits).dispatches[other]? =
      if other = index then some { dispatch with permits := permits }
      else state.dispatches[other]? := by
    intro other
    by_cases same : other = index
    · simp [setPermits, same, dispatched]
    · simp [setPermits, same, Ne.symm same]
  have count : ∀ other, after.runningOf other +
        (if (before.dispatch = some other && (before.phase = .running)) = true then 1 else 0) =
      state.runningOf other +
        (if (before.dispatch = some other && (phase = .running)) = true then 1 else 0) := by
    intro other
    unfold runningOf
    rw [executions]
    exact countP_set_eq found _ _
  constructor
  · funext other
    unfold bucketOf
    rw [dispatches, lookup]
    by_cases same : other = index
    · rw [if_pos same, same, dispatched]
      rfl
    · rw [if_neg same]
  · intro other served stored
    have counted := count other
    rw [resumed] at counted
    rw [dispatches, lookup] at stored
    by_cases same : other = index
    · subst same
      rw [if_pos rfl] at stored
      cases stored
      have permitted := bounded.permitted other dispatch dispatched
      simp only [decide_true, Bool.true_and, decide_eq_true_eq] at counted
      change after.runningOf other + permits = capacity.get dispatch.provider "video"
      omega
    · rw [if_neg same] at stored
      have different : index ≠ other := Ne.symm same
      simp only [some.injEq, different, decide_false, Bool.false_and,
        Bool.false_eq_true, if_false] at counted
      have permitted := bounded.permitted other served stored
      omega

theorem Bounded.acquire (result : state.acquire future = some after) : after.Bounded capacity := by
  obtain ⟨execution, index, dispatch, found, resumed, waiting, dispatched,
    free, same⟩ := acquire_cases result
  have executions : after.executions = state.executions.set future
      { execution with phase := .running } := by
    rw [same]
    rfl
  subst same
  have moved := bounded.movePermit (dispatch.permits - 1) found executions
    resumed dispatched rfl (by simp [waiting]; omega)
  refine bounded.advance found executions ?_ (shrinks_promote _ _ _) moved.1 moved.2 ?_
  · simp [waiting]
  · intro key taskId occupant stored notPending
    rw [show Occupancy.slots _ = state.slots.promote _ _ from rfl, get?_promote] at stored
    split at stored
    · next same =>
        rw [same.1, same.2]
        exact .inl ⟨future, _, (getElem?_setExecution found _ future).trans (if_pos rfl),
          by rw [resumed]; rfl, rfl, rfl, rfl⟩
    · exact .inr ⟨stored, fun promoter => promoter.advance found executions (by simp [waiting])⟩

theorem Bounded.finish (result : state.finish future = some after) : after.Bounded capacity := by
  obtain ⟨execution, found, cases⟩ := finish_cases result
  rcases cases with ⟨claimed, same⟩ | resumedCases
  · subst same
    refine bounded.setExecution found (fun _ => rfl) ?_
    simp [claimed]
  obtain ⟨slots, executions⟩ : after.slots = state.slots.release execution.key execution.taskId ∧
      after.executions = state.executions.set future
        { execution with phase := .done } := by
    rcases resumedCases with ⟨_, _, _, _, _, same⟩ | ⟨_, _, _, same⟩ <;>
      rw [same] <;> exact ⟨rfl, rfl⟩
  have moved : after.bucketOf = state.bucketOf ∧
      ∀ (other : Nat) served, after.dispatches[other]? = some served →
        after.runningOf other + served.permits = capacity.get served.provider "video" := by
    rcases resumedCases with
      ⟨index, dispatch, resumed, running, dispatched, same⟩ |
      ⟨index, resumed, waiting, same⟩
    · exact bounded.movePermit (dispatch.permits + 1) found executions resumed
        dispatched (by rw [same]; rfl) (by simp [running]; omega)
    · have dispatches : after.dispatches = state.dispatches := by
        rw [same]
        rfl
      refine ⟨by unfold bucketOf; rw [dispatches], ?_⟩
      intro other served stored
      rw [runningOf_set found executions (by simp [waiting])]
      exact bounded.permitted other served (dispatches ▸ stored)
  refine bounded.advance found executions (fun _ => rfl)
    (slots ▸ shrinks_release _ _ _) moved.1 moved.2 ?_
  intro key taskId occupant stored _
  rw [slots, get?_release] at stored
  split at stored
  · cases stored
  · next other =>
    -- the occupant of the ending execution is no longer in the table
    exact .inr ⟨stored, fun promoter => promoter.advance found executions
      fun _ _ isKey isTask => absurd ⟨isKey.symm, isTask.symm⟩ other⟩

theorem Bounded.drain : state.drain.Bounded capacity := by
  have shrinks := shrinks_drainFinished state.slots state.isDone
  have earlier : ∀ key taskId occupant, (state.drain.slots.bucket key).get? taskId = some occupant →
      (state.slots.bucket key).get? taskId = some occupant := by
    intro key taskId occupant stored
    change (((state.slots.drainFinished state.isDone).1).bucket key).get?
      taskId = some occupant at stored
    rw [get?_drainFinished, filter_eq_some_iff] at stored
    exact stored.1
  exact
    { registered := fun key taskId occupant stored =>
        bounded.registered key taskId occupant (earlier key taskId occupant stored)
      identified := bounded.identified
      permitted := bounded.permitted
      promoted := fun key taskId occupant stored =>
        bounded.promoted key taskId occupant (earlier key taskId occupant stored)
      fits := fits_of_shrinks bounded shrinks (fun _ => id) (fun _ => Nat.le_refl _) rfl }

end

/-! ## New executions -/

theorem bucket_spawn (state : Occupancy) (execution : Execution)
    (pending : Bool) (key : BucketKey) : (state.spawn execution pending).slots.bucket key =
      if key = execution.key then
        (state.slots.bucket execution.key).put execution.taskId
          { task := state.executions.length
            pending := pending }
      else state.slots.bucket key :=
  bucket_register _ _ _ _ _

variable {execution : Execution}

theorem occupant_spawn {pending : Bool} {occupant : Occupant}
    (stored : ((state.spawn execution pending).slots.bucket key).get? taskId = some occupant) :
    (occupant.task = state.executions.length ∧ occupant.pending = pending) ∨
      (state.slots.bucket key).get? taskId = some occupant := by
  rw [bucket_spawn] at stored
  split at stored
  · rename_i sameKey
    rw [Dict.get?_put] at stored
    split at stored
    · cases stored
      exact .inl ⟨rfl, rfl⟩
    · rw [sameKey]
      exact .inr stored
  · exact .inr stored

theorem Accounted.spawn (accounted : state.Accounted capacity) {pending : Bool}
    (created : execution.phase = .created) (identified : ∀ index, execution.dispatch = some index →
      state.bucketOf index = some execution.key)
    (pendingResume : execution.dispatch.isSome = true → pending = true) :
    (state.spawn execution pending).Accounted capacity := by
  refine
    { registered := ?_
      identified := ?_
      permitted := ?_
      promoted := ?_ }
  · intro key taskId occupant stored
    change occupant.task < (state.executions ++ [execution]).length
    rw [length_append, length_singleton]
    rcases occupant_spawn stored with ⟨isNew, _⟩ | earlier
    · omega
    · have inside := accounted.registered key taskId occupant earlier
      omega
  · intro future other index stored dispatched
    rw [getElem?_spawn] at stored
    split at stored
    · cases stored
      exact identified index dispatched
    · exact accounted.identified future other index stored dispatched
  · intro index dispatch dispatched
    have sameCount : (state.spawn execution pending).runningOf index = state.runningOf index := by
      change (state.executions ++ [execution]).countP _ = _
      rw [countP_append, countP_singleton]
      simp [created, runningOf]
    rw [sameCount]
    exact accounted.permitted index dispatch dispatched
  · intro key taskId occupant stored notPending resumed
    obtain ⟨backing, backingFound, isResumed⟩ := resumed
    rw [getElem?_spawn] at backingFound
    rcases occupant_spawn stored with ⟨isNew, samePending⟩ | earlier
    · rw [if_pos isNew] at backingFound
      cases backingFound
      rw [samePending, pendingResume isResumed] at notPending
      cases notPending
    · have inside := accounted.registered key taskId occupant earlier
      rw [if_neg (by omega)] at backingFound
      obtain ⟨future, promoter, promoterFound, rest⟩ := accounted.promoted key
        taskId occupant earlier notPending ⟨backing, backingFound, isResumed⟩
      have promoterInside := (List.getElem?_eq_some_iff.mp promoterFound).1
      refine ⟨future, promoter, ?_, rest⟩
      rw [getElem?_spawn, if_neg (by omega)]
      exact promoterFound

theorem Accounted.claimedLoad_spawn (accounted : state.Accounted capacity) (execution : Execution)
    (pending : Bool) (key : BucketKey) : (state.slots.bucket key).rows.countP (fun row =>
        (state.spawn execution pending).claimedUnfinished row.2.task) = state.claimedLoad key := by
  apply countP_congr
  intro row member
  have inside := accounted.registered key row.1 row.2 (Dict.get?_eq_some_iff.mpr member)
  unfold claimedUnfinished
  rw [getElem?_spawn, if_neg (by omega)]

theorem unfinishedOf_spawn (state : Occupancy)
    (pending : Bool) (created : execution.phase = .created) (index : Nat) :
    (state.spawn execution pending).unfinishedOf index = state.unfinishedOf index +
        if execution.dispatch = some index then 1 else 0 := by
  change (state.executions ++ [execution]).countP _ = _
  rw [countP_append, countP_singleton]
  simp [created, unfinishedOf]

/-- The claim loop only registers a task while the bucket has room. -/
theorem Bounded.enrol (bounded : state.Bounded capacity)
    (room : state.slots.hasRoom key (capacity.get key.1 key.2) = true) :
    (state.enrol key taskId).Bounded capacity := by
  have accounted : (state.enrol key taskId).Accounted capacity := by
    exact bounded.toAccounted.spawn rfl nofun nofun
  refine { accounted with fits := ?_ }
  intro other
  by_cases same : other = key
  · subst same
    left
    have stored : (state.enrol other taskId).slots.bucket other =
        (state.slots.bucket other).put taskId _ :=
      (bucket_spawn _ _ _ _).trans (if_pos rfl)
    have longer := Dict.length_put_le (state.slots.bucket other) taskId
      { task := state.executions.length, pending := false }
    unfold hasRoom at room
    split at room
    · cases room
    · rw [decide_eq_true_eq] at room
      rw [stored]
      omega
  · have stored : (state.enrol key taskId).slots.bucket other = state.slots.bucket other :=
      (bucket_spawn _ _ _ _).trans (if_neg same)
    rcases bounded.fits other with short | load
    · left
      rw [stored]
      exact short
    · right
      have claimed : (state.enrol key taskId).claimedLoad other = state.claimedLoad other := by
        rw [claimedLoad, stored]
        exact bounded.claimedLoad_spawn _ _ _
      have dispatched : (state.enrol key taskId).dispatchLoad other (capacity.get other.1 other.2) =
          state.dispatchLoad other (capacity.get other.1 other.2) := by
        apply Finset.sum_congr rfl
        intro index _
        rw [Occupancy.enrol, unfinishedOf_spawn _ _ rfl]
        rfl
      omega

/-- What the loop of a dispatch has done to the state it started from, with
`rest` still to register. -/
structure Dispatching (capacity : CapacityTable) (state : Occupancy)
    (provider : String) (total : Nat) (rest : List String) (current : Occupancy) : Prop where
  accounted : current.Accounted capacity
  dispatches : current.dispatches = state.dispatches ++ [⟨provider, capacity.get provider "video"⟩]
  others : ∀ key, key ≠ (provider, "video") → current.slots.bucket key = state.slots.bucket key
  length : (current.slots.bucket (provider, "video")).rows.length + rest.length ≤
    (state.slots.bucket (provider, "video")).rows.length + total
  claimed : ∀ key, current.claimedLoad key ≤ state.claimedLoad key
  unfinished : ∀ index, index ≠ state.dispatches.length →
    current.unfinishedOf index = state.unfinishedOf index
  created : current.unfinishedOf state.dispatches.length + rest.length ≤ total

theorem Accounted.dispatching (accounted : state.Accounted capacity)
    (provider : String) (taskIds : List String) :
    Dispatching capacity state provider taskIds.length taskIds { state with
      dispatches := state.dispatches ++ [⟨provider, capacity.get provider "video"⟩] } := by
  have none : state.unfinishedOf state.dispatches.length = 0 := by
    apply countP_eq_zero.mpr
    intro execution member
    -- no execution belongs to a dispatch that has not begun
    have apart : execution.dispatch ≠ some state.dispatches.length := by
      intro dispatched
      obtain ⟨future, found⟩ := getElem?_of_mem member
      have served := accounted.identified future execution _ found dispatched
      obtain ⟨dispatch, isHere, _⟩ := map_eq_some_iff.mp served
      have inside := (List.getElem?_eq_some_iff.mp isHere).1
      omega
    simp [apart]
  refine
    { accounted :=
        { registered := accounted.registered
          identified := ?_
          permitted := ?_
          promoted := accounted.promoted }
      dispatches := rfl
      others := fun _ _ => rfl
      length := Nat.le_refl _
      claimed := fun _ => Nat.le_refl _
      unfinished := fun _ _ => rfl
      created := ?_ }
  · intro future execution index found dispatched
    have served := accounted.identified future execution index found dispatched
    obtain ⟨dispatch, dispatchFound, _⟩ := map_eq_some_iff.mp served
    have inside := (List.getElem?_eq_some_iff.mp dispatchFound).1
    unfold bucketOf
    rw [getElem?_append_left inside]
    exact served
  · intro index dispatch found
    rw [getElem?_snoc] at found
    split at found
    · rename_i isLast
      cases found
      have running := state.runningOf_le_unfinishedOf index
      rw [isLast, none, Nat.le_zero] at running
      change state.runningOf index + _ = _
      rw [isLast, running, Nat.zero_add]
    · exact accounted.permitted index dispatch found
  · change state.unfinishedOf _ + _ ≤ _
    rw [none, Nat.zero_add]

variable {provider : String}

theorem Dispatching.spawn {current : Occupancy} {total : Nat} {rest : List String}
    (dispatching : Dispatching capacity state provider total (taskId :: rest) current) :
    Dispatching capacity state provider total rest (current.spawn
      (.resumed provider state.dispatches.length taskId) true) := by
  have length := dispatching.length
  have created := dispatching.created
  rw [length_cons] at length created
  refine
    { accounted := ?_
      dispatches := dispatching.dispatches
      others := ?_
      length := ?_
      claimed := ?_
      unfinished := ?_
      created := ?_ }
  · apply dispatching.accounted.spawn rfl
    · intro index dispatched
      cases dispatched
      unfold bucketOf
      rw [dispatching.dispatches, getElem?_concat_length]
      rfl
    · intro _
      rfl
  · intro key different
    rw [bucket_spawn, if_neg (show key ≠ Execution.key _ from different)]
    exact dispatching.others key different
  · have longer := Dict.length_put_le (current.slots.bucket (provider, "video")) taskId
      { task := current.executions.length, pending := true }
    simp only [bucket_spawn, Execution.resumed, if_true]
    omega
  · intro key
    apply Nat.le_trans _ (dispatching.claimed key)
    -- the new execution is not a claimed one
    have newTask : (current.spawn (.resumed provider state.dispatches.length
        taskId) true).claimedUnfinished current.executions.length = false := by
      unfold claimedUnfinished
      rw [getElem?_spawn, if_pos rfl]
      rfl
    rw [← dispatching.accounted.claimedLoad_spawn
      (.resumed provider state.dispatches.length taskId) true, claimedLoad, bucket_spawn]
    split
    · rename_i same
      subst same
      refine Nat.le_trans (countP_put_le _ _ _ _) ?_
      simp [newTask]
    · exact Nat.le_refl _
  · intro index different
    rw [unfinishedOf_spawn _ _ rfl, if_neg (show Execution.dispatch _ ≠ _ from
      fun same => different (some.inj same).symm)]
    exact dispatching.unfinished index different
  · rw [unfinishedOf_spawn _ _ rfl]
    simp only [Execution.resumed, if_true]
    omega

theorem Dispatching.dispatchLoad_le {current : Occupancy} {total : Nat}
    (dispatching : Dispatching capacity state provider total [] current)
    (key : BucketKey) (limit : Nat) :
    current.dispatchLoad key limit ≤ state.dispatchLoad key limit +
      if key = (provider, "video") then min total limit else 0 := by
  have newUnserved : state.dispatches.length ∉ state.serving key := by
    rw [mem_serving, bucketOf, getElem?_eq_none (Nat.le_refl _)]
    simp
  have oldLoad : ∑ index ∈ state.serving key, min (current.unfinishedOf index) limit =
      state.dispatchLoad key limit := by
    apply Finset.sum_congr rfl
    intro index member
    have different : index ≠ state.dispatches.length := by
      intro same
      rw [same] at member
      exact newUnserved member
    rw [dispatching.unfinished index different]
  have lookup : ∀ index, index ∈ current.serving key → index ∈ state.serving key ∨
        (index = state.dispatches.length ∧ key = (provider, "video")) := by
    intro index member
    rw [mem_serving, bucketOf, dispatching.dispatches, getElem?_snoc] at member
    split at member
    · rename_i isLast
      exact .inr ⟨isLast, (some.inj member).symm⟩
    · exact .inl (mem_serving.mpr member)
  by_cases same : key = (provider, "video")
  · rw [if_pos same, ← oldLoad]
    have within : current.serving key ⊆ insert state.dispatches.length (state.serving key) := by
      intro index member
      rcases lookup index member with old | new
      · exact Finset.mem_insert_of_mem old
      · rw [new.1]
        exact Finset.mem_insert_self _ _
    have bound := Finset.sum_le_sum_of_subset
      (f := fun index => min (current.unfinishedOf index) limit) within
    rw [Finset.sum_insert newUnserved] at bound
    have created := dispatching.created
    rw [length_nil, Nat.add_zero] at created
    have newLoad := min_le_min_right limit created
    unfold dispatchLoad
    omega
  · rw [if_neg same, Nat.add_zero, ← oldLoad]
    apply Finset.sum_le_sum_of_subset
    intro index member
    rcases lookup index member with old | new
    · exact old
    · exact absurd new.2 same

theorem Bounded.dispatchBucket (bounded : state.Bounded capacity) {taskIds : List String}
    (room : state.DispatchFits capacity provider taskIds) :
    (state.dispatchBucket provider (capacity.get provider "video") taskIds).Bounded capacity := by
  have final := dispatchBucket_loop
    (Dispatching capacity state provider taskIds.length) state provider
    (capacity.get provider "video") taskIds (bounded.toAccounted.dispatching provider taskIds)
    (fun _ _ _ dispatching => dispatching.spawn)
  refine { final.accounted with fits := ?_ }
  intro key
  have claimed := final.claimed key
  have dispatched := final.dispatchLoad_le key (capacity.get key.1 key.2)
  by_cases same : key = (provider, "video")
  · subst same
    rw [if_pos rfl] at dispatched
    have length := final.length
    rw [length_nil] at length
    rcases room with short | load
    · left
      dsimp only
      omega
    · right
      dsimp only at dispatched ⊢
      omega
  · rw [if_neg same] at dispatched
    rcases bounded.fits key with short | load
    · left
      rw [final.others key same]
      exact short
    · right
      omega

end Occupancy

namespace GenerationWorker

/-- Every dispatch fits into its bucket. -/
def dispatchesFit (capacity : CapacityTable) : Rules :=
  { enrol := fun _ _ _ => True
    dispatch := Occupancy.DispatchFits capacity
    cancel := fun _ _ => True }

theorem bounded_preserved (capacity : CapacityTable) :
    Preserved capacity (dispatchesFit capacity) (Occupancy.Bounded capacity) :=
  { initially := Occupancy.bounded_empty capacity
    enrol := fun _ _ _ bounded _ room => bounded.enrol room
    dispatch := fun _ _ _ bounded fits _ => bounded.dispatchBucket fits
    start := fun _ _ _ bounded result => bounded.start result
    acquire := fun _ _ _ bounded result => bounded.acquire result
    leave := fun _ _ _ bounded result => bounded.leave result
    finish := fun _ _ _ bounded result => bounded.finish result
    cancel := fun _ taskId bounded _ => bounded.requestCancel taskId
    drain := fun _ bounded => bounded.drain }

/-- Along every run in which each dispatch fits into its bucket, no bucket has
more active executions than its capacity. -/
theorem active_within_capacity (text : FailureText)
    (capacity : CapacityTable) {worker : GenerationWorker}
    (reachable : ((system text capacity).restrict
      (Allows capacity (dispatchesFit capacity))).Reachable worker)
    (provider media : String) :
    worker.occupancy.activeIn (provider, media) ≤ capacity.get provider media := by
  have bounded := (bounded_preserved capacity).invariant.reachable reachable
  exact bounded.activeIn_le (provider, media)

/-- The orphan is dispatched into the only slot, and the claim cycle leaves the
waiting task alone. -/
theorem claimed_video_within_capacity : ∃ worker, ((system .verbatim .oneSlot).restrict
        (Allows .oneSlot (dispatchesFit .oneSlot))).Reachable worker ∧
      worker.occupancy.activeIn ("provider", "video") = 1 ∧
      worker.occupancy.activeIn ("provider", "video") ≤
        CapacityTable.oneSlot.get "provider" "video" := by
  have reachable : ((system .verbatim .oneSlot).restrict
      (Allows .oneSlot (dispatchesFit .oneSlot))).Reachable _ :=
    ⟨onQueue contendedQueue, [.scanOrphans [("provider", ["orphan"])],
        .dispatchBucket "provider" ["orphan"], .start 0, .acquire 0, .beginClaims, .claimNext 4,
        .claimNext 5, .route 6 "provider"], ⟨_, rfl⟩,
      .cons ⟨trivial, rfl⟩ (.cons ⟨fun _ => .inl (by decide), rfl⟩ (.cons ⟨trivial, rfl⟩
        (.cons ⟨trivial, rfl⟩ (.cons ⟨trivial, rfl⟩ (.cons ⟨trivial, rfl⟩ (.cons ⟨trivial, rfl⟩
        (.cons ⟨fun _ _ _ _ _ _ => trivial, rfl⟩ (.nil _))))))))⟩
  exact ⟨_, reachable, rfl, active_within_capacity .verbatim .oneSlot reachable "provider" "video"⟩

/-- The orphan is handed to the dispatcher, the waiting task is claimed into
the only slot, and the dispatch then starts with a full semaphore. -/
theorem dispatch_exceeds_capacity : ∃ worker, (system .verbatim .oneSlot).Reachable worker ∧
      CapacityTable.oneSlot.get "provider" "video" <
        worker.occupancy.activeIn ("provider", "video") := by
  exact ⟨_, reachable_of_events contendedQueue
    [.scanOrphans [("provider", ["orphan"])], .beginClaims, .claimNext 4, .claimNext 5,
      .route 6 "provider",
      .start 0,
      .dispatchBucket "provider" ["orphan"],
      .start 1,
      .acquire 1] rfl, by decide⟩

end GenerationWorker

end MatrixSpooll.Worker
