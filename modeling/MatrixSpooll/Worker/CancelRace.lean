import MatrixSpooll.Library.Entries
import MatrixSpooll.Queue.Refinement
import MatrixSpooll.Worker.ProcessTask

/-!
# Completion against cancellation

However `cancel_task` calls and cancel signals fall between the steps of
`_process_task`, its shielded writes and the drain, the task ends in one
terminal status, and the result of the executor is either kept or compensated
exactly once; which of the two is decided by the rowcount of `mark_succeeded`.

`Sound` is what holds whatever the coroutine waits for, and `At` is what its
position adds.
-/

namespace MatrixSpooll.Worker

open Library Queue List TaskQueue

namespace CompensableResult

theorem compensations_le_one (result : CompensableResult) : result.compensations ≤ 1 := by
  have counted := result.counted
  split at counted <;> omega

theorem compensated_compensateCancelled (result : CompensableResult) :
    result.compensateCancelled.compensated = true := by
  unfold compensateCancelled
  split
  · assumption
  · rfl

end CompensableResult

theorem Write.eq_succeeded {write : Write} (success : write.isSuccess = true) :
    ∃ resultJson, write = .succeeded resultJson := by
  cases write with
  | succeeded resultJson => exact ⟨resultJson, rfl⟩
  | failed message | cancelled => cases success

namespace ProcessTask

variable {text : FailureText} {state after : ProcessTask} {index rows : Nat}
  {write : Write} {position : Nat → Position}

/-! ## Transactions -/

section

variable {queue : TaskQueue} {now : Nat} {taskId : String}

theorem transact_eq_applyAny (text : FailureText) (queue : TaskQueue)
    (now : Nat) (taskId : String) (write : Write) :
    ∃ op, (transact text queue now taskId write).1 = queue.applyAny text op := by
  cases write with
  | succeeded resultJson => exact ⟨.call (.markSucceeded now taskId resultJson), rfl⟩
  | failed message => exact ⟨.call (.markFailed now taskId message), rfl⟩
  | cancelled => exact ⟨.call (.finalizeCancelled now taskId "user"), rfl⟩

theorem transact_settles {task : Task} (found : queue.find? taskId = some task)
    (decided : write = .cancelled ∨ (transact text queue now taskId write).2 ≠ 0) :
    (transact text queue now taskId write).1.IsSettled taskId := by
  cases write with
  | succeeded resultJson =>
    obtain ⟨stored, row, succeeded⟩ := markSucceeded_status (decided.resolve_left (by simp))
    exact ⟨stored, row, by rw [succeeded]; rfl⟩
  | failed message =>
    have changed := decided.resolve_left (by simp)
    rcases markFailedFrom_cases .running text queue now taskId message rfl with
      ⟨zero, _⟩ | ⟨nonzero, before, settled⟩
    · simp only [transact, markFailed, markFailedRunning, zero, if_true] at changed
      exact absurd rfl changed
    · simp only [transact, markFailed, markFailedRunning, nonzero, if_false]
      exact IsSettled.later (settled.isSettled rfl)
        (cascadeFailedQueued_retires text now message _ _ taskId).steps
  | cancelled => exact finalizeCancelled_settles queue now taskId "user" found

end

/-! ## The invariant -/

/-- The write has decided the status of the task. -/
def Decides (write : WriteTask) : Prop :=
  write.progress ≠ .created ∧ (write.write = .cancelled ∨ write.progress.rows ≠ 0)

/-- `mark_succeeded` was not called, or it changed nothing and is over. -/
def NotKept (writes : List WriteTask) : Prop :=
  ∀ write ∈ writes, write.write.isSuccess = true → write.progress = .finished 0

/-- Where the write carries the result, it has changed no row and called the
compensation. -/
def Undone (write : WriteTask) : Prop :=
  write.write.isSuccess = true → write.progress = .closing 0 ∨ write.progress = .finished 0

/-- Only the first write may carry the result, and it tells whether the result
was compensated. -/
def Balanced : List WriteTask → Option CompensableResult → Prop
  | [], result => ∀ held, result = some held → held.compensated = true
  | first :: later, result => (∀ write ∈ later, write.write.isSuccess = false) ∧
      ∀ held, result = some held → (held.compensated = true ↔ Undone first)

/-- What one write says about the row of its task. -/
structure Fits (queue : TaskQueue) (taskId : String) (write : WriteTask) : Prop where
  decided : Decides write → queue.IsSettled taskId
  succeeded : write.write.isSuccess = true → write.progress.rows ≠ 0 →
    ∃ task, queue.find? taskId = some task ∧ task.status = .succeeded
  rowsLe : write.write.isSuccess = true → write.progress.rows ≤ 1

structure Sound (text : FailureText) (state : ProcessTask) : Prop where
  recorded : ∃ ops, state.queue = empty.runAny text ops
  present : ∃ task, state.queue.find? state.taskId = some task
  fits : ∀ write ∈ state.writes, Fits state.queue state.taskId write
  discarded : state.discardBegun = true → NotKept state.writes
  balanced : Balanced state.writes state.result

def Awaits (writes : List WriteTask) (index : Nat) (kind : Write → Prop) : Prop :=
  ∃ write, writes[index]? = some write ∧ kind write.write

def At (state : ProcessTask) : Prop :=
  match state.position with
  | .entering | .executing => state.writes = [] ∧ state.discardBegun = false
  | .quarantining _ => NotKept state.writes
  | .failing index => NotKept state.writes ∧ Awaits state.writes index (fun _ => True)
  | .succeeding index | .salvaging index =>
    Awaits state.writes index (fun write => write.isSuccess = true)
  | .cancelling index _ =>
    NotKept state.writes ∧ Awaits state.writes index (fun write => write = .cancelled)
  | .discarding _ => NotKept state.writes ∧ state.queue.IsSettled state.taskId
  | .ended false => state.queue.IsSettled state.taskId
  | .ended true => state.drained = true → state.queue.IsSettled state.taskId

/-- Only a coroutine that is over is drained. -/
def DrainedLast (state : ProcessTask) : Prop :=
  state.drained = true → ∃ cancelled, state.position = .ended cancelled

structure Consistent (text : FailureText) (state : ProcessTask) : Prop where
  sound : state.Sound text
  located : state.At
  drainedLast : state.DrainedLast

/-! ## One write -/

theorem fits_created (queue : TaskQueue) (taskId : String) (write : Write) :
    Fits queue taskId ⟨write, .created⟩ :=
  { decided := fun decides => absurd rfl decides.1
    succeeded := fun _ changed => absurd rfl changed
    rowsLe := fun _ => Nat.zero_le 1 }

theorem Fits.later {queue next : TaskQueue} {taskId : String}
    {entry : WriteTask} (fits : Fits queue taskId entry)
    (refines : Refines queue next) : Fits next taskId entry := by
  refine { decided := ?_, succeeded := ?_, rowsLe := fits.rowsLe }
  · intro decides
    exact (fits.decided decides).later refines
  · intro success changed
    obtain ⟨task, found, status⟩ := fits.succeeded success changed
    obtain ⟨later, row, sameStatus⟩ := status_stays refines found (by rw [status]; rfl)
    exact ⟨later, row, sameStatus.trans status⟩

/-- A write that has committed keeps its rows from then on. -/
theorem Fits.advance {queue : TaskQueue} {taskId : String}
    {old new : WriteProgress} (fits : Fits queue taskId ⟨write, old⟩)
    (committed : old ≠ .created) (sameRows : new.rows = old.rows) :
    Fits queue taskId ⟨write, new⟩ := by
  refine { decided := ?_, succeeded := ?_, rowsLe := ?_ }
  · intro decides
    exact fits.decided ⟨committed, sameRows ▸ decides.2⟩
  · exact sameRows ▸ fits.succeeded
  · exact sameRows ▸ fits.rowsLe

/-! ## One write changes -/

section

variable {writes : List WriteTask} {old new : WriteProgress}

theorem mem_set_found {task changed entry : WriteTask} (found : writes[index]? = some task)
    (member : entry ∈ writes.set index changed) : entry ∈ writes ∨ entry = changed := by
  obtain ⟨other, stored⟩ := getElem?_of_mem member
  rw [getElem?_set_found found] at stored
  split at stored
  · cases stored
    exact .inr rfl
  · exact .inl (mem_of_getElem? stored)

theorem NotKept.set (notKept : NotKept writes) (found : writes[index]? = some ⟨write, old⟩)
    (unfinished : old ≠ .finished 0) : NotKept (writes.set index ⟨write, new⟩) := by
  intro entry member success
  rcases mem_set_found found member with earlier | rfl
  · exact notKept entry earlier success
  · exact absurd (notKept _ (mem_of_getElem? found) success) unfinished

theorem Balanced.set {result changed : Option CompensableResult} (balanced : Balanced writes result)
    (found : writes[index]? = some ⟨write, old⟩)
    (unrelated : write.isSuccess = false → changed = result)
    (carried : write.isSuccess = true →
      (∀ held, result = some held → (held.compensated = true ↔ Undone ⟨write, old⟩)) →
      ∀ held, changed = some held → (held.compensated = true ↔ Undone ⟨write, new⟩)) :
    Balanced (writes.set index ⟨write, new⟩) changed := by
  cases writes with
  | nil => cases found
  | cons first later =>
    obtain ⟨plain, undone⟩ := balanced
    cases index with
    | zero =>
      cases found
      refine ⟨plain, ?_⟩
      cases success : write.isSuccess with
      | false =>
        rw [unrelated success]
        simpa [Undone, success] using undone
      | true => exact carried success undone
    | succ index =>
      rw [getElem?_cons_succ] at found
      have oldPlain := plain _ (mem_of_getElem? found)
      rw [unrelated oldPlain]
      refine ⟨?_, undone⟩
      intro entry member
      rcases mem_set_found found member with earlier | rfl
      · exact plain entry earlier
      · exact oldPlain

theorem Awaits.set {awaited : Nat} {kind : Write → Prop} (awaits : Awaits writes awaited kind)
    (found : writes[index]? = some ⟨write, old⟩) :
    Awaits (writes.set index ⟨write, new⟩) awaited kind := by
  obtain ⟨entry, stored, isKind⟩ := awaits
  unfold Awaits
  rw [getElem?_set_found found]
  split
  · next same =>
    rw [same, found] at stored
    cases stored
    exact ⟨_, rfl, isKind⟩
  · exact ⟨entry, stored, isKind⟩

section

variable {sent : WriteTask} {result : Option CompensableResult}
  (balanced : Balanced writes result)
include balanced

theorem Balanced.first (member : sent ∈ writes) (success : sent.write.isSuccess = true) :
    ∃ later, writes = sent :: later := by
  cases writes with
  | nil => cases member
  | cons first later =>
    rcases mem_cons.mp member with rfl | inside
    · exact ⟨later, rfl⟩
    · simp [balanced.1 sent inside] at success

theorem Balanced.unique (member : sent ∈ writes) (success : sent.write.isSuccess = true) :
    writes.filter (fun write => write.write.isSuccess) = [sent] := by
  obtain ⟨later, rfl⟩ := balanced.first member success
  rw [filter_cons_of_pos (by exact success), filter_eq_nil_iff.mpr]
  simpa using balanced.1

theorem Balanced.unsent {held : CompensableResult} (isHeld : result = some held)
    (none : ∀ write ∈ writes, write.write.isSuccess = false) : held.compensated = true := by
  cases writes with
  | nil => exact balanced held isHeld
  | cons first later =>
    apply (balanced.2 held isHeld).mpr
    simp [Undone, none first mem_cons_self]

end

end

variable {queue : TaskQueue} {result : Option CompensableResult}

/-- What the position says is kept when the coroutine stays where it is. -/
theorem At.stay {writes : List WriteTask} (located : state.At)
    (settled : state.queue.IsSettled state.taskId → queue.IsSettled state.taskId)
    (fresh : state.writes = [] → writes = [])
    (notKept : NotKept state.writes → NotKept writes)
    (awaits : ∀ index kind, Awaits state.writes index kind → Awaits writes index kind) :
    { state with queue := queue, writes := writes, result := result }.At := by
  unfold At at located ⊢
  dsimp only
  generalize state.position = position at located
  cases position with
  | entering | executing => exact ⟨fresh located.1, located.2⟩
  | quarantining message => exact notKept located
  | failing index | cancelling index raises =>
    exact ⟨notKept located.1, awaits index _ located.2⟩
  | succeeding index | salvaging index => exact awaits index _ located
  | discarding raises => exact ⟨notKept located.1, settled located.2⟩
  | ended cancelled =>
    cases cancelled with
    | false => exact settled located
    | true =>
      intro drained
      exact settled (located drained)

/-! ## What keeps the invariant -/

theorem Sound.applyAny (sound : state.Sound text) (op : RepositoryOp) :
    { state with queue := state.queue.applyAny text op }.Sound text := by
  have refines := applyAny_refines text state.queue op
  refine ⟨?_, ?_, ?_, sound.discarded, sound.balanced⟩
  · obtain ⟨ops, recorded⟩ := sound.recorded
    refine ⟨ops ++ [op], ?_⟩
    change state.queue.applyAny text op = _
    rw [recorded]
    unfold runAny
    rw [foldl_append]
    rfl
  · obtain ⟨task, found⟩ := sound.present
    exact find_later refines found
  · intro entry member
    exact (sound.fits entry member).later refines

theorem Consistent.applyAny (consistent : state.Consistent text) (op : RepositoryOp) :
    { state with queue := state.queue.applyAny text op }.Consistent text := by
  refine
    { sound := consistent.sound.applyAny op
      located := ?_
      drainedLast := consistent.drainedLast }
  refine consistent.located.stay ?_ id id (fun _ _ => id)
  intro settled
  exact settled.later (applyAny_refines text state.queue op)

theorem Consistent.requestCancel (consistent : state.Consistent text) :
    { state with cancelRequested := true }.Consistent text :=
  { sound := { consistent.sound with }
    located := consistent.located
    drainedLast := consistent.drainedLast }

/-- The coroutine is not over. -/
def Unended (state : ProcessTask) : Prop :=
  ∀ cancelled, state.position ≠ .ended cancelled

theorem Consistent.undrained (consistent : state.Consistent text)
    (unended : state.Unended) : state.drained = false := by
  rw [Bool.eq_false_iff]
  intro drained
  obtain ⟨cancelled, ended⟩ := consistent.drainedLast drained
  exact unended cancelled ended

theorem drainedLast_of_undrained (undrained : state.drained = false) : state.DrainedLast := by
  intro drained
  rw [undrained] at drained
  cases drained

theorem Consistent.goto (consistent : state.Consistent text)
    (unended : state.Unended) {position : Position} (located : (state.goto position).At) :
    (state.goto position).Consistent text :=
  { sound := { consistent.sound with }
    located := located
    drainedLast := drainedLast_of_undrained (consistent.undrained unended) }

theorem Consistent.endCancelled (consistent : state.Consistent text)
    (unended : state.Unended) : (state.goto (.ended true)).Consistent text := by
  apply consistent.goto unended
  intro drained
  change state.drained = true at drained
  rw [consistent.undrained unended] at drained
  cases drained

theorem mem_submit {entry : WriteTask} (member : entry ∈ (state.submit write position).writes) :
    entry ∈ state.writes ∨ entry = ⟨write, .created⟩ := by
  rcases mem_append.mp member with earlier | new
  · exact .inl earlier
  · exact .inr (mem_singleton.mp new)

theorem NotKept.submit (notKept : NotKept state.writes)
    (plain : write.isSuccess = false) (position : Nat → Position) :
    NotKept (state.submit write position).writes := by
  intro entry member success
  rcases mem_submit member with earlier | new
  · exact notKept entry earlier success
  · rw [new, show WriteTask.write _ = write from rfl, plain] at success
    cases success

theorem Sound.submit (sound : state.Sound text)
    (plain : write.isSuccess = false) (position : Nat → Position) :
    (state.submit write position).Sound text := by
  refine ⟨sound.recorded, sound.present, ?_, ?_, ?_⟩
  · intro entry member
    rcases mem_submit member with earlier | new
    · exact sound.fits entry earlier
    · subst new
      exact fits_created _ _ write
  · intro begun
    exact (sound.discarded begun).submit plain position
  · have balanced := sound.balanced
    unfold ProcessTask.submit
    cases writes : state.writes with
    | nil =>
      rw [writes] at balanced
      exact ⟨nofun, by simpa [Undone, plain, Balanced] using balanced⟩
    | cons first later =>
      rw [writes] at balanced
      refine ⟨?_, balanced.2⟩
      intro entry member
      rcases mem_append.mp member with earlier | new
      · exact balanced.1 entry earlier
      · rw [mem_singleton.mp new]
        exact plain

theorem awaits_submit (state : ProcessTask) (write : Write)
    (position : Nat → Position) {kind : Write → Prop} (isKind : kind write) :
    Awaits (state.submit write position).writes state.writes.length kind :=
  ⟨⟨write, .created⟩, getElem?_concat_length, isKind⟩

section

variable (consistent : state.Consistent text)
include consistent

theorem Consistent.submit (unended : state.Unended) (plain : write.isSuccess = false)
    (located : (state.submit write position).At) : (state.submit write position).Consistent text :=
  { sound := consistent.sound.submit plain position
    located := located
    drainedLast := drainedLast_of_undrained (consistent.undrained unended) }

theorem Consistent.submitCancelled (unended : state.Unended)
    (notKept : NotKept state.writes) (raises : Bool) :
    (state.submit .cancelled (.cancelling · raises)).Consistent text := by
  apply consistent.submit unended rfl
  exact ⟨notKept.submit rfl _, awaits_submit state _ _ rfl⟩

/-- A write under way makes progress, possibly with a new queue or result. -/
theorem Consistent.setWrite {old new : WriteProgress}
    (found : state.writes[index]? = some ⟨write, old⟩) (unfinished : old ≠ .finished 0)
    (recorded : ∃ ops, queue = empty.runAny text ops) (refines : Refines state.queue queue)
    (fits : Fits queue state.taskId ⟨write, new⟩)
    (unrelated : write.isSuccess = false → result = state.result)
    (carried : write.isSuccess = true →
      (∀ held, state.result = some held → (held.compensated = true ↔ Undone ⟨write, old⟩)) →
      ∀ held, result = some held → (held.compensated = true ↔ Undone ⟨write, new⟩)) :
    ({ state with queue := queue, result := result }.setWrite index
      ⟨write, new⟩).Consistent text := by
  refine
    { sound := ⟨recorded, ?_, ?_, ?_, consistent.sound.balanced.set found unrelated carried⟩
      located := ?_
      drainedLast := consistent.drainedLast }
  · obtain ⟨task, present⟩ := consistent.sound.present
    exact find_later refines present
  · intro entry member
    rcases mem_set_found found member with earlier | rfl
    · exact (consistent.sound.fits entry earlier).later refines
    · exact fits
  · intro begun
    exact (consistent.sound.discarded begun).set found unfinished
  · refine consistent.located.stay (fun settled => settled.later refines) ?_
      (fun notKept => notKept.set found unfinished) (fun _ _ awaits => awaits.set found)
    intro noWrites
    rw [noWrites] at found
    cases found

theorem Consistent.commit {now : Nat} (result : state.commit text now index = some after) :
    after.Consistent text := by
  unfold ProcessTask.commit at result
  split at result
  · rename_i write found
    cases result
    obtain ⟨op, applied⟩ := transact_eq_applyAny text state.queue now state.taskId write
    obtain ⟨task, present⟩ := consistent.sound.present
    have refines : Refines state.queue (transact text state.queue now state.taskId write).1 := by
      rw [applied]
      exact applyAny_refines text state.queue op
    refine consistent.setWrite found (by simp) ?_ refines ?_ (fun _ => rfl) ?_
    · change ∃ ops, (transact text state.queue now state.taskId write).1 = _
      rw [applied]
      exact (consistent.sound.applyAny op).recorded
    · refine ⟨fun decides => transact_settles present decides.2, ?_, ?_⟩
      · intro success changed
        obtain ⟨resultJson, rfl⟩ := Write.eq_succeeded success
        exact markSucceeded_status changed
      · intro success
        obtain ⟨resultJson, rfl⟩ := Write.eq_succeeded success
        exact markSucceeded_rows_le_one _ now _ resultJson
    · intro success undone held isHeld
      simp [undone held isHeld, Undone, show write.isSuccess = true from success]
  · cases result

theorem Consistent.advance (result : state.advance index = some after) : after.Consistent text := by
  have refines := Refines.refl state.queue
  have recorded := consistent.sound.recorded
  unfold ProcessTask.advance at result
  split at result
  · rename_i write rows found
    cases result
    have fits := (consistent.sound.fits _ (mem_of_getElem? found)).advance
      (by simp) (show (WriteProgress.closing rows).rows = rows from rfl)
    unfold compensate
    split
    · rename_i uncommitted
      simp only [Bool.and_eq_true, decide_eq_true_eq] at uncommitted
      refine consistent.setWrite found (by simp) recorded refines fits ?_ ?_
      · intro plain
        rw [show write.isSuccess = false from plain] at uncommitted
        cases uncommitted.1
      · intro _ _ held isHeld
        obtain ⟨kept, _, rfl⟩ := Option.map_eq_some_iff.mp isHeld
        simp [kept.compensated_compensateCancelled, uncommitted.2, Undone]
    · rename_i changed
      simp only [Bool.and_eq_true, decide_eq_true_eq, not_and] at changed
      refine consistent.setWrite found (by simp) recorded refines fits (fun _ => rfl) ?_
      intro success undone held isHeld
      simp [undone held isHeld, Undone, show write.isSuccess = true from success, changed success]
  · rename_i write rows found
    cases result
    refine consistent.setWrite found (by simp) recorded refines
      ((consistent.sound.fits _ (mem_of_getElem? found)).advance (by simp)
        rfl) (fun _ => rfl) ?_
    intro _ undone held isHeld
    simp [undone held isHeld, Undone]
  · cases result

theorem Consistent.drain {now : Nat} (result : state.drain now = some after) :
    after.Consistent text := by
  unfold ProcessTask.drain at result
  repeat' split at result
  all_goals cases result
  · rename_i cancelled ended _ isCancelled
    have applied := consistent.applyAny (.call (.finalizeCancelled now state.taskId "user"))
    obtain ⟨task, present⟩ := consistent.sound.present
    have settled := finalizeCancelled_settles state.queue now state.taskId "user" present
    refine
      { sound := { applied.sound with }
        located := ?_
        drainedLast := fun _ => ⟨cancelled, ended⟩ }
    unfold At
    rw [show ProcessTask.position _ = .ended true from
      ended.trans (congrArg _ isCancelled)]
    exact fun _ => settled
  · rename_i cancelled ended _ notCancelled
    have isFalse : cancelled = false := Bool.eq_false_iff.mpr notCancelled
    subst isFalse
    have located := consistent.located
    unfold At at located
    rw [ended] at located
    refine
      { sound := { consistent.sound with }
        located := ?_
        drainedLast := fun _ => ⟨false, ended⟩ }
    unfold At
    rw [show ProcessTask.position _ = .ended false from ended]
    exact located

end

/-! ## The coroutine goes on -/

/-- What the coroutine can do at its suspension point, `wait_for` running into
its timeout included. -/
inductive Goes (state : ProcessTask) : ProcessTask → Prop where
  | ends : state.Unended → Goes state (state.goto (.ended true))
  | executes : state.position = .entering → Goes state (state.goto .executing)
  | fails {message : String} : state.position = .quarantining message →
      Goes state (state.submit (.failed message) .failing)
  | counts {index rows : Nat} :
      state.position = .failing index ∨ state.position = .succeeding index →
      state.finishedRows index = some rows → Goes state (state.afterRows rows)
  | salvages {index : Nat} : state.position = .succeeding index →
      Goes state (state.goto (.salvaging index))
  | salvaged {index : Nat} : state.position = .salvaging index →
      Goes state (state.afterSalvage index)
  | discards {index rows : Nat} {raises : Bool} :
      state.position = .cancelling index raises →
      state.finishedRows index = some rows →
      Goes state { state.goto (.discarding raises) with discardBegun := true }
  | leaves {raises : Bool} : state.position = .discarding raises →
      Goes state (state.goto (.ended raises))

theorem goes_of_resume (result : state.resume = some after) : state.Goes after := by
  unfold resume at result
  have ends : some (state.goto (.ended true)) = some after → state.Goes after := by
    intro same
    cases same
    apply Goes.ends
    intro cancelled ended
    rw [ended] at result
    cases result
  cases position : state.position <;> simp only [position] at result
  case executing | ended => cases result
  all_goals split at result
  case entering.isFalse =>
    cases result
    exact .executes position
  case quarantining.isFalse =>
    cases result
    exact .fails position
  case failing.isFalse =>
    obtain ⟨rows, finished, rfl⟩ := Option.map_eq_some_iff.mp result
    exact .counts (.inl position) finished
  case succeeding.isTrue =>
    cases result
    exact .salvages position
  case succeeding.isFalse =>
    obtain ⟨rows, finished, rfl⟩ := Option.map_eq_some_iff.mp result
    exact .counts (.inr position) finished
  case salvaging.isTrue =>
    cases result
    exact .salvaged position
  case salvaging.isFalse => cases result
  case cancelling.isFalse =>
    obtain ⟨rows, finished, rfl⟩ := Option.map_eq_some_iff.mp result
    exact .discards position finished
  case discarding.isFalse =>
    cases result
    exact .leaves position
  all_goals exact ends result

theorem Goes.unended (goes : state.Goes after) : state.Unended := by
  cases goes with
  | ends unended => exact unended
  | counts waits => rcases waits with position | position <;>
      simp [Unended, position]
  | executes position | fails position | salvages position
  | salvaged position | discards position | leaves position => simp [Unended, position]

theorem finishedRows_eq_some (finished : state.finishedRows index = some rows) :
    ∃ write, state.writes[index]? = some ⟨write, .finished rows⟩ := by
  unfold finishedRows at finished
  split at finished <;> cases finished
  next found => exact ⟨_, found⟩

theorem Sound.notKept_of_zero (sound : state.Sound text)
    (awaits : Awaits state.writes index (fun write => write.isSuccess = true))
    (finished : state.finishedRows index = some 0) :
    NotKept state.writes := by
  obtain ⟨awaited, awaitedFound, awaitedSuccess⟩ := awaits
  obtain ⟨write, found⟩ := finishedRows_eq_some finished
  rw [awaitedFound] at found
  cases found
  intro entry member success
  have only := sound.balanced.unique (mem_of_getElem? awaitedFound) awaitedSuccess
  have inside : entry ∈ [_] := only ▸ mem_filter.mpr ⟨member, success⟩
  rw [mem_singleton.mp inside]

theorem Consistent.afterRows (consistent : state.Consistent text)
    (unended : state.Unended) (finished : state.finishedRows index = some rows)
    (notKept : rows = 0 → NotKept state.writes) : (state.afterRows rows).Consistent text := by
  unfold ProcessTask.afterRows
  split
  · rename_i zero
    exact consistent.submitCancelled unended (notKept zero) false
  · rename_i changed
    apply consistent.goto unended
    obtain ⟨write, found⟩ := finishedRows_eq_some finished
    apply (consistent.sound.fits _ (mem_of_getElem? found)).decided
    exact ⟨by simp, .inr changed⟩

theorem Consistent.afterSalvage (consistent : state.Consistent text) (unended : state.Unended)
    (awaits : Awaits state.writes index (fun write => write.isSuccess = true)) :
    (state.afterSalvage index).Consistent text := by
  unfold ProcessTask.afterSalvage
  split
  · exact consistent.endCancelled unended
  · rename_i zero
    apply consistent.submitCancelled unended
    exact consistent.sound.notKept_of_zero awaits zero
  · exact consistent.endCancelled unended

theorem Consistent.goes (consistent : state.Consistent text)
    (goes : state.Goes after) : after.Consistent text := by
  have unended := goes.unended
  have located := consistent.located
  unfold At at located
  cases goes with
  | ends => exact consistent.endCancelled unended
  | executes position | salvages position =>
    rw [position] at located
    exact consistent.goto unended located
  | fails position =>
    rw [position] at located
    apply consistent.submit unended rfl
    exact ⟨NotKept.submit located rfl _, awaits_submit state _ _ trivial⟩
  | counts waits finished =>
    apply consistent.afterRows unended finished
    intro zero
    subst zero
    rcases waits with position | position <;> rw [position] at located
    · exact located.1
    · exact consistent.sound.notKept_of_zero located finished
  | salvaged position =>
    rw [position] at located
    exact consistent.afterSalvage unended located
  | @discards index _ raises position finished =>
    rw [position] at located
    obtain ⟨notKept, awaited, awaitedFound, isCancelled⟩ := located
    have settled : state.queue.IsSettled state.taskId := by
      obtain ⟨write, found⟩ := finishedRows_eq_some finished
      rw [awaitedFound] at found
      cases found
      apply (consistent.sound.fits _ (mem_of_getElem? awaitedFound)).decided
      exact ⟨by simp, .inl isCancelled⟩
    have moved := consistent.goto unended
      (show (state.goto (.discarding raises)).At from ⟨notKept, settled⟩)
    exact
      { sound := { moved.sound with discarded := fun _ => notKept }
        located := moved.located
        drainedLast := moved.drainedLast }
  | @leaves raises position =>
    rw [position] at located
    apply consistent.goto unended
    cases raises with
    | false => exact located.2
    | true => exact fun _ => located.2

theorem Consistent.withUndone (consistent : state.Consistent text) (noWrites : state.writes = [])
    (undone : Bool) : (state.withUndone undone).Consistent text := by
  unfold ProcessTask.withUndone
  split
  · refine
      { sound := { consistent.sound with balanced := ?_ }
        located := consistent.located.stay id id id (fun _ _ => id)
        drainedLast := consistent.drainedLast }
    change Balanced state.writes _
    rw [noWrites]
    intro held isHeld
    cases isHeld
    exact CompensableResult.compensated_compensateCancelled _
  · exact consistent

theorem withUndone_frame (state : ProcessTask) (undone : Bool) :
    (state.withUndone undone).writes = state.writes ∧
      (state.withUndone undone).drained = state.drained ∧
      (state.withUndone undone).position = state.position := by
  unfold withUndone
  split <;> exact ⟨rfl, rfl, rfl⟩

/-- The executor has returned: the result is at hand and `mark_succeeded` is
the only write. -/
theorem Sound.returned (sound : state.Sound text) (noWrites : state.writes = [])
    (undiscarded : state.discardBegun = false) (resultJson : String) :
    ({ state with result := some .fresh }.submit (.succeeded resultJson)
      .succeeding).Sound text := by
  unfold ProcessTask.submit
  refine ⟨sound.recorded, sound.present, ?_, ?_, ?_⟩
  · intro entry member
    simp only [noWrites, nil_append, mem_singleton] at member
    subst member
    exact fits_created _ _ _
  · intro begun
    change state.discardBegun = true at begun
    rw [undiscarded] at begun
    cases begun
  · simp [noWrites, Balanced, Undone, Write.isSuccess, CompensableResult.fresh]

theorem Consistent.executorEnds (consistent : state.Consistent text)
    (position : state.position = .executing) (outcome : Outcome) :
    (state.executorEnds outcome).Consistent text := by
  have located := consistent.located
  unfold At at located
  rw [position] at located
  obtain ⟨noWrites, undiscarded⟩ := located
  have unended : ∀ undone, (state.withUndone undone).Unended := by
    intro undone
    simp [Unended, (withUndone_frame state undone).2.2, position]
  have notKept : ∀ undone, NotKept (state.withUndone undone).writes := by
    intro undone write member
    rw [(withUndone_frame state undone).1, noWrites] at member
    cases member
  cases outcome with
  | returned resultJson =>
    exact
      { sound := consistent.sound.returned noWrites undiscarded resultJson
        located := show Awaits _ state.writes.length (fun write => write.isSuccess = true) from
            awaits_submit { state with result := some .fresh } _ _ rfl
        drainedLast := drainedLast_of_undrained (consistent.undrained (by
          simp [Unended, position])) }
  | failed message undone =>
    have undid := consistent.withUndone noWrites undone
    unfold ProcessTask.executorEnds
    simp only
    split
    · apply undid.submit (unended undone) rfl
      exact ⟨(notKept undone).submit rfl _, awaits_submit _ _ _ trivial⟩
    · exact undid.goto (unended undone) (notKept undone)
  | cancelled undone =>
    have undid := consistent.withUndone noWrites undone
    exact undid.submitCancelled (unended undone) (notKept undone) true

theorem consistent_invariant (text : FailureText) : (system text).Invariant (Consistent text) := by
  refine { initially := ?_, preserved := ?_ }
  · intro state initially
    obtain ⟨ops, taskId, taskType, task, found, _, rfl⟩ := initially
    exact
      { sound := ⟨⟨ops, rfl⟩, ⟨task, found⟩, nofun, nofun, nofun⟩
        located := ⟨rfl, rfl⟩
        drainedLast := drainedLast_of_undrained rfl }
  · intro state event after consistent step
    change state.next text event = some after at step
    cases event with
    | cancelTask now target =>
      cases step
      exact consistent.applyAny (.call (.cancelTask now target))
    | requestCancel =>
      simp only [next] at step
      split at step <;> cases step
      · exact consistent
      · exact consistent.requestCancel
    | executorEnds outcome =>
      simp only [next] at step
      split at step <;> cases step
      next position => exact consistent.executorEnds position outcome
    | resume => exact consistent.goes (goes_of_resume step)
    | timeout =>
      simp only [next] at step
      split at step <;> cases step
      next index position => exact consistent.goes (.salvaged position)
    | commit now index => exact consistent.commit step
    | advance index => exact consistent.advance step
    | drain now => exact consistent.drain step

end ProcessTask

/-! ## The worker gets through -/

def WriteProgress.remaining : WriteProgress → Nat
  | .created => 3
  | .committed _ => 2
  | .closing _ => 1
  | .finished _ => 0

/-- Steps the coroutine may still take; a new write is worth three of them. -/
def Position.remaining : Position → Nat
  | .entering => 12
  | .executing => 11
  | .quarantining _ => 10
  | .succeeding _ => 7
  | .failing _ => 6
  | .salvaging _ => 6
  | .cancelling _ _ => 2
  | .discarding _ => 1
  | .ended _ => 0

namespace ProcessTask

variable {text : FailureText} {state after : ProcessTask} {index rows : Nat}

/-- A bound on the worker's steps to come. -/
def remaining (state : ProcessTask) : Nat :=
  state.position.remaining + (state.writes.map (fun write => write.progress.remaining)).sum +
    (!state.drained).toNat

theorem remaining_submit (state : ProcessTask) (write : Write) (position : Nat → Position) :
    (state.submit write position).remaining + state.position.remaining =
      state.remaining + 3 + (position state.writes.length).remaining := by
  simp only [remaining, submit, map_append, sum_append, map_cons, map_nil, sum_cons, sum_nil]
  rw [show WriteProgress.created.remaining = 3 from rfl]
  omega

theorem remaining_setWrite {old : WriteTask}
    (found : state.writes[index]? = some old) (new : WriteTask) :
    (state.setWrite index new).remaining + old.progress.remaining =
      state.remaining + new.progress.remaining := by
  have moved := sum_map_set found new (fun write => write.progress.remaining)
  simp only [remaining, setWrite]
  omega

theorem remaining_goto_lt {position : Position}
    (below : position.remaining < state.position.remaining) :
    (state.goto position).remaining < state.remaining := by
  simp only [remaining, goto]
  omega

theorem remaining_afterRows (above : 5 < state.position.remaining) :
    (state.afterRows rows).remaining < state.remaining := by
  unfold afterRows
  split
  · have moved : _ = state.remaining + 3 + 2 :=
      remaining_submit state .cancelled (.cancelling · false)
    omega
  · exact remaining_goto_lt (Nat.zero_lt_of_lt above)

theorem remaining_afterSalvage (above : 5 < state.position.remaining) :
    (state.afterSalvage index).remaining < state.remaining := by
  have ends : (state.goto (.ended true)).remaining < state.remaining :=
    remaining_goto_lt (Nat.zero_lt_of_lt above)
  have cancels : _ = state.remaining + 3 + 2 :=
    remaining_submit state .cancelled (.cancelling · true)
  unfold afterSalvage
  split
  · exact ends
  · omega
  · exact ends

theorem Unended.remaining_pos (unended : state.Unended) : 0 < state.position.remaining := by
  unfold Unended at unended
  cases position : state.position with
  | ended cancelled => exact absurd position (unended cancelled)
  | _ => exact Nat.succ_pos _

theorem remaining_goes (goes : state.Goes after) : after.remaining < state.remaining := by
  cases goes with
  | ends unended => exact remaining_goto_lt unended.remaining_pos
  | executes position | salvages position | leaves position =>
    apply remaining_goto_lt
    simp [position, Position.remaining]
  | @fails message position =>
    have moves := remaining_submit state (.failed message) .failing
    simp only [position, Position.remaining] at moves
    omega
  | counts waits =>
    apply remaining_afterRows
    rcases waits with position | position <;>
      simp [position, Position.remaining]
  | salvaged position =>
    apply remaining_afterSalvage
    simp [position, Position.remaining]
  | @discards _ _ raises position =>
    change (state.goto (.discarding raises)).remaining < _
    apply remaining_goto_lt
    simp [position, Position.remaining]

theorem remaining_withUndone (state : ProcessTask) (undone : Bool) :
    (state.withUndone undone).remaining = state.remaining ∧
      (state.withUndone undone).position = state.position := by
  obtain ⟨writes, drained, position⟩ := withUndone_frame state undone
  simp only [remaining, writes, drained, position, and_self]

theorem remaining_executorEnds (position : state.position = .executing) (outcome : Outcome) :
    (state.executorEnds outcome).remaining < state.remaining := by
  cases outcome with
  | returned resultJson =>
    have moves := remaining_submit { state with result := some .fresh }
      (.succeeded resultJson) .succeeding
    change (state.executorEnds (.returned resultJson)).remaining +
      state.position.remaining = state.remaining + 3 + 7 at moves
    rw [position] at moves
    simp only [Position.remaining] at moves
    omega
  | failed message undone =>
    obtain ⟨same, here⟩ := remaining_withUndone state undone
    have submits := remaining_submit (state.withUndone undone) (.failed message) .failing
    simp only [here, position, Position.remaining] at submits
    unfold executorEnds
    simp only
    split
    · omega
    · rw [← same]
      apply remaining_goto_lt
      simp [here, position, Position.remaining]
  | cancelled undone =>
    obtain ⟨same, here⟩ := remaining_withUndone state undone
    have submits := remaining_submit (state.withUndone undone) .cancelled (.cancelling · true)
    simp only [here, position, Position.remaining] at submits
    change ((state.withUndone undone).submit .cancelled (.cancelling · true)).remaining < _
    omega

/-- Every step of the worker uses up one of the remaining ones, and nothing
from outside adds any. -/
theorem remaining_next {event : RaceEvent} (step : state.next text event = some after) :
    after.remaining + (isOwn event).toNat ≤ state.remaining := by
  cases event with
  | cancelTask now target =>
    cases step
    exact Nat.le_refl _
  | requestCancel =>
    simp only [next] at step
    split at step <;> cases step <;> exact Nat.le_refl _
  | executorEnds outcome =>
    simp only [next] at step
    split at step <;> cases step
    next position => exact remaining_executorEnds position outcome
  | resume => exact remaining_goes (goes_of_resume step)
  | timeout =>
    simp only [next] at step
    split at step <;> cases step
    next index position => exact remaining_goes (.salvaged position)
  | commit now index =>
    simp only [next, commit] at step
    split at step <;> cases step
    rename_i write found
    exact Nat.le_of_eq (Nat.succ.inj (Nat.succ.inj (remaining_setWrite found _)))
  | advance index =>
    simp only [next, advance] at step
    split at step <;> cases step
    · next write rows found =>
          unfold compensate
          split <;>
            exact Nat.le_of_eq (Nat.succ.inj (remaining_setWrite found _))
    · next write rows found => exact Nat.le_of_eq (remaining_setWrite found _)
  | drain now =>
    simp only [next, drain] at step
    repeat' split at step
    all_goals cases step
    all_goals
      rename_i undrained _
      have last : (!state.drained).toNat = 1 := by
        rw [Bool.eq_false_iff.mpr undrained]
        rfl
      have here : state.remaining = state.position.remaining +
          (state.writes.map (fun write => write.progress.remaining)).sum + 1 :=
        congrArg _ last
      exact Nat.le_of_eq here.symm

/-- As long as something is left to do, the worker can take a step. -/
theorem Consistent.progress (consistent : state.Consistent text)
    (unsettled : state.isSettled = false) :
    ∃ event, isOwn event = true ∧ (state.next text event).isSome = true := by
  by_cases underway : ∃ (index : Nat) (write : WriteTask), state.writes[index]? = some write ∧
      ∀ rows, write.progress ≠ .finished rows
  · obtain ⟨index, ⟨kind, progress⟩, found, unfinished⟩ := underway
    cases progress with
    | created =>
      refine ⟨.commit 0 index, rfl, ?_⟩
      simp only [next, ProcessTask.commit, found]
      rfl
    | committed rows | closing rows =>
      refine ⟨.advance index, rfl, ?_⟩
      simp only [next, ProcessTask.advance, found]
      rfl
    | finished rows => exact absurd rfl (unfinished rows)
  · have stopped : ∀ (index : Nat) (write : WriteTask), state.writes[index]? = some write →
        ∃ rows, write.progress = .finished rows := by
      intro index write found
      by_contra none
      exact underway ⟨index, write, found, fun rows finished => none ⟨rows, finished⟩⟩
    have awaited : ∀ index kind, Awaits state.writes index kind →
        (state.finishedRows index).isSome = true := by
      intro index kind awaits
      obtain ⟨write, found, _⟩ := awaits
      obtain ⟨rows, finished⟩ := stopped index write found
      obtain ⟨write, progress⟩ := write
      cases finished
      simp [finishedRows, found]
    have located := consistent.located
    unfold At at located
    cases position : state.position with
    | entering | quarantining message | discarding raises =>
      refine ⟨.resume, rfl, ?_⟩
      simp only [next, ProcessTask.resume, position]
      split <;> rfl
    | executing =>
      refine ⟨.executorEnds (.cancelled false), rfl, ?_⟩
      simp only [next, position]
      rfl
    | failing index | cancelling index raises =>
      rw [position] at located
      have finished := awaited index _ located.2
      refine ⟨.resume, rfl, ?_⟩
      simp only [next, ProcessTask.resume, position]
      split <;> simp [finished]
    | succeeding index | salvaging index =>
      rw [position] at located
      have finished := awaited index _ located
      refine ⟨.resume, rfl, ?_⟩
      simp only [next, ProcessTask.resume, position]
      split <;> simp_all
    | ended cancelled =>
      have allOver : state.writes.all (fun write => write.progress.isFinished) = true := by
        rw [all_eq_true]
        intro write member
        obtain ⟨index, found⟩ := getElem?_of_mem member
        obtain ⟨rows, finished⟩ := stopped index write found
        rw [finished]
        rfl
      have undrained : state.drained = false := by
        simp only [isSettled, position, allOver, Bool.and_true] at unsettled
        exact unsettled
      refine ⟨.drain 0, rfl, ?_⟩
      simp only [next, ProcessTask.drain, position, undrained]
      cases cancelled <;> rfl

/-! ## What a settled race looks like -/

theorem Consistent.isSettled_row (consistent : state.Consistent text)
    (settled : state.isSettled = true) :
    state.queue.IsSettled state.taskId := by
  have located := consistent.located
  unfold At at located
  unfold ProcessTask.isSettled at settled
  rw [Bool.and_eq_true] at settled
  obtain ⟨drained, _⟩ := settled
  split at drained
  · rename_i cancelled position
    rw [position] at located
    cases cancelled with
    | false => exact located
    | true => exact located drained
  · cases drained

theorem Sound.succeededRows (sound : state.Sound text) {write : WriteTask}
    (member : write ∈ state.writes) (success : write.write.isSuccess = true) :
    state.succeededRows = write.progress.rows := by
  unfold ProcessTask.succeededRows
  rw [sound.balanced.unique member success]
  simp

theorem succeededRows_of_unsent (none : ∀ write ∈ state.writes, write.write.isSuccess = false) :
    state.succeededRows = 0 := by
  unfold ProcessTask.succeededRows
  rw [filter_eq_nil_iff.mpr]
  · rfl
  · simpa using none

theorem Consistent.succeeded_of_rows (consistent : state.Consistent text)
    (one : state.succeededRows = 1) :
    ∃ task, state.queue.find? state.taskId = some task ∧ task.status = .succeeded := by
  by_cases sent : ∃ write ∈ state.writes, write.write.isSuccess = true
  · obtain ⟨write, member, success⟩ := sent
    apply (consistent.sound.fits write member).succeeded success
    rw [← consistent.sound.succeededRows member success]
    omega
  · rw [succeededRows_of_unsent (by simpa using sent)] at one
    cases one

/-- Kept and never compensated, or compensated once: the rowcount of
`mark_succeeded` tells which. -/
theorem Consistent.result_decided (consistent : state.Consistent text)
    (settled : state.isSettled = true) {result : CompensableResult}
    (held : state.result = some result) : (state.succeededRows = 1 ∧ result.compensations = 0 ∧
        state.discardBegun = false) ∨
      (state.succeededRows = 0 ∧ result.compensations = 1) := by
  have counted := result.counted
  unfold ProcessTask.isSettled at settled
  rw [Bool.and_eq_true, all_eq_true] at settled
  by_cases sent : ∃ write ∈ state.writes, write.write.isSuccess = true
  · obtain ⟨write, member, success⟩ := sent
    have single := consistent.sound.succeededRows member success
    have stopped := settled.2 write member
    have rowsLe := (consistent.sound.fits write member).rowsLe success
    have undone : result.compensated = true ↔ Undone write := by
      have balanced := consistent.sound.balanced
      obtain ⟨later, isFirst⟩ := balanced.first member success
      rw [isFirst] at balanced
      exact balanced.2 result held
    cases progress : write.progress with
    | created | committed rows | closing rows =>
      simp [progress, WriteProgress.isFinished] at stopped
    | finished rows =>
      rw [progress] at rowsLe single
      change rows ≤ 1 at rowsLe
      change state.succeededRows = rows at single
      simp only [Undone, success, progress, true_implies, reduceCtorEq, false_or,
        WriteProgress.finished.injEq] at undone
      rcases Nat.le_one_iff_eq_zero_or_eq_one.mp rowsLe with zero | one
      · right
        rw [undone.mpr zero, if_pos rfl] at counted
        exact ⟨single.trans zero, counted⟩
      · left
        rw [if_neg (by rw [undone]; omega)] at counted
        refine ⟨single.trans one, counted, ?_⟩
        rw [Bool.eq_false_iff]
        intro begun
        have notKept := consistent.sound.discarded begun write member success
        rw [progress, one] at notKept
        cases notKept
  · have none : ∀ write ∈ state.writes, write.write.isSuccess = false := by
      simpa using sent
    rw [consistent.sound.balanced.unsent held none, if_pos rfl] at counted
    exact .inr ⟨succeededRows_of_unsent none, counted⟩

/-- Whatever cancellations fall between the steps: the worker gets through,
the compensation of a result runs at most once, and when nothing is left to do
the task has one terminal status with one terminal event, and a result of the
executor is kept exactly when `mark_succeeded` changed one row, and compensated
otherwise. -/
theorem cancel_race_settles (text : FailureText) {state : ProcessTask}
    (reachable : (system text).Reachable state) :
    (state.isSettled = false → ∃ event, isOwn event = true ∧
      (state.next text event).isSome = true) ∧
    (∀ event after, state.next text event = some after →
      after.remaining + (isOwn event).toNat ≤ state.remaining) ∧
    (∀ result, state.result = some result → result.compensations ≤ 1) ∧ (state.isSettled = true →
      (∃ task event, state.queue.find? state.taskId = some task ∧ task.status.isTerminal = true ∧
        state.queue.eventsOf state.taskId = [event] ∧
        event.status = task.status ∧
        (state.succeededRows = 1 → task.status = .succeeded)) ∧
      ∀ result, state.result = some result →
        ((result.compensations = 0 ∧ state.discardBegun = false) ↔ state.succeededRows = 1) ∧
        (state.succeededRows ≠ 1 → result.compensations = 1)) := by
  have consistent := (consistent_invariant text).reachable reachable
  refine ⟨consistent.progress, ?_, ?_, ?_⟩
  · intro event after step
    exact remaining_next step
  · intro result _
    exact result.compensations_le_one
  · intro settled
    constructor
    · obtain ⟨task, found, terminal⟩ := consistent.isSettled_row settled
      obtain ⟨ops, recorded⟩ := consistent.sound.recorded
      have stored := found
      rw [recorded] at stored
      obtain ⟨event, single, sameStatus⟩ := settled_event stored terminal
      rw [← recorded] at single
      refine ⟨task, event, found, terminal, single, sameStatus, ?_⟩
      intro one
      obtain ⟨later, row, succeeded⟩ := consistent.succeeded_of_rows one
      rw [found] at row
      cases row
      exact succeeded
    · intro result held
      rcases consistent.result_decided settled held with
        ⟨one, uncompensated, kept⟩ | ⟨zero, compensated⟩
      · constructor
        · exact ⟨fun _ => one, fun _ => ⟨uncompensated, kept⟩⟩
        · intro different
          exact absurd one different
      · constructor
        · constructor
          · intro both
            omega
          · intro one
            omega
        · intro _
          exact compensated

/-- A running image task. -/
def renderQueue : TaskQueue :=
  empty.runAny .verbatim [.call (.enqueue 1 "render" (.plain "image" "project" "shot" none)),
      .call (.claimNext 2 "image" [] [])]

/-- The cancellation comes first, the executor returns a result nevertheless. -/
theorem cancelled_render_compensated : ∃ state result, (system .verbatim).Reachable state ∧
      state.isSettled = true ∧ state.result = some result ∧
      state.succeededRows = 0 ∧ result.compensations = 1 := by
  have reachable : (system .verbatim).Reachable _ :=
    ⟨claimed renderQueue "render" "image",
      [.resume, .cancelTask 3 "render", .executorEnds (.returned "\x7b\x7d"),
        .commit 4 0, .advance 0, .advance 0, .resume, .commit 5 1, .advance 1,
        .advance 1, .resume, .resume, .drain 6],
      ⟨_, "render", "image", _, rfl, rfl, rfl⟩,
      .of_foldlM (fun _ _ _ => id) rfl⟩
  have settles := cancel_race_settles .verbatim reachable
  exact ⟨_, _, reachable, rfl, rfl, rfl, ((settles.2.2.2 rfl).2 _ rfl).2 (by decide)⟩

end ProcessTask

end MatrixSpooll.Worker
