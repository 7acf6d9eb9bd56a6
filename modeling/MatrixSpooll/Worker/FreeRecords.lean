import MatrixSpooll.Library.Transition
import MatrixSpooll.Queue.Lifecycle

/-!
# Records of free creations

A free creation keeps its status twice, in the queue row and in the record of
the project.  The functions of the worker that handle a free task are trees of
their awaits, so that a cancel signal may come at each of them.  A write whose
await is cut by a signal is left behind: an update of the row under
`asyncio.shield` is still made, the thread that writes the record may be
dropped before it starts.
-/

namespace MatrixSpooll.Worker

open Library Queue

inductive FreeTaskType where
  | image
  | video
  | edit
  | audio
  | videoMerge
  deriving DecidableEq, Repr

inductive MediaType where
  | image
  | video
  | audio
  | postprocess
  deriving DecidableEq, Repr

/-- What the record says about its task; media and error texts are left out. -/
structure CreationRecord where
  taskId : Option String
  status : TaskStatus
  deriving DecidableEq, Repr

/-- `_sync_free_creation_metadata`. -/
def CreationRecord.sync (taskId : String) (record : CreationRecord)
    (status : TaskStatus) : CreationRecord :=
  if record.taskId.getD taskId = taskId then ⟨some taskId, status⟩ else record

/-- The record, if it names the task, has the status of the row. -/
def CreationRecord.Follows (taskId : String) (record : CreationRecord) (row : TaskStatus) : Prop :=
  record.taskId = some taskId → record.status = row

/-- What is awaited: an update of the row to `target`, a write of the record,
or something else. -/
inductive Effect where
  | mark (target : TaskStatus)
  | sync (status : TaskStatus)
  | other
  deriving DecidableEq, Repr

namespace Effect

/-- The `WHERE` clauses of `mark_task_succeeded`, `mark_task_failed`,
`mark_task_cancelled` and `_requeue_single_task`. -/
@[simp] def changes : Effect → TaskStatus → Bool
  | .mark .cancelled, row => row = .queued || row = .cancelling || row = .running
  | .mark _, row => row = .running
  | _, _ => false

@[simp] def row (effect : Effect) (row : TaskStatus) : TaskStatus :=
  match effect with
  | .mark target => if effect.changes row then target else row
  | _ => row

@[simp] def record (taskId : String) : Effect → CreationRecord → CreationRecord
  | .sync status, record => record.sync taskId status
  | _, record => record

end Effect

/-- How an executor or the poll of a job ends.  `unpublished` is an executor
that has committed its result and then raised on the event about it. -/
inductive FreeOutcome where
  | returned
  | unpublished
  | failed
  | cancelled
  | providerChanged
  | endpointChanged
  | expired
  deriving DecidableEq, Repr

/-- A coroutine, by its awaits. -/
inductive Routine where
  /-- There is no such continuation. -/
  | nothing
  | returned
  /-- `CancelledError` has left the future. -/
  | raised
  /-- `next` gets whether the row was changed, `cut` follows a cancel signal. -/
  | await (effect : Effect) (next : Bool → Routine) (cut : Routine)
  /-- `ends` gets the last status that was written to the record. -/
  | execute (ends : FreeOutcome → Option TaskStatus → Routine)

namespace Routine

/-- `mark_task_cancelled`, with the record where `synced`. -/
def cancelRow (synced : Bool) (ended cut : Routine) : Routine :=
  .await (.mark .cancelled)
    (fun _ => if synced then .await (.sync .cancelled) (fun _ => ended) cut else ended) cut

/-- `mark_task_failed`, and `mark_task_cancelled` when no row was changed. -/
def failRow (syncFailed syncCancelled : Bool) (cut : Routine) : Routine :=
  .await (.mark .failed) (fun changed =>
    if !changed then cancelRow syncCancelled .returned cut
    else if syncFailed then .await (.sync .failed) (fun _ => .returned) cut
    else .returned) cut

/-- `mark_task_succeeded`.  A signal waits for the same update once more, for
five seconds or until the next signal. -/
def succeedRow (synced : Bool) (raise : Routine) : Routine :=
  .await (.mark .succeeded) (fun changed =>
      if changed then .returned else cancelRow synced .returned raise)
    (.await (.mark .succeeded) (fun changed =>
      if changed then raise else cancelRow synced raise raise) raise)

/-- The signal waits for the same update once more. -/
def isRetried : Routine → Bool
  | .await (.mark .succeeded) _ (.await (.mark .succeeded) _ _) => true
  | _ => false

/-- `_process_task`.  The proxy around the executor has written the record when
it returns or raises; a signal may have cut it anywhere. -/
def processTask (taskType : FreeTaskType) : Routine :=
  .await .other (fun _ => .execute (fun outcome written =>
    match outcome, written with
    | .returned, some .succeeded => succeedRow true .raised
    | .failed, some .failed | .unpublished, some .succeeded =>
      if taskType = .videoMerge then failRow false true .raised
      else .await .other (fun _ => failRow false true .raised) .raised
    | .cancelled, _ => cancelRow true .raised .raised
    -- only the executor of free videos compares its provider with the claim
    | .providerChanged, some .queued =>
      if taskType = .video then
        .await .other (fun _ => .await (.mark .queued) (fun changed =>
          if changed then .await (.sync .queued) (fun _ => .returned) .raised
          else failRow true true .raised) .raised) .raised
      else .nothing
    | _, _ => .nothing)) .raised

/-- The handler of `_run_one`; it takes the future out of the slot table, so
that no drain finds it. -/
def stopped : Routine :=
  cancelRow false .returned .returned

/-- `_run_one` around `_process_resume_task`.  A future that is cancelled
before its first step stays in the slot table unseen.  The return of a worker
that stops is left out: the task waits for the next scan. -/
def runOne : Routine :=
  .await .other (fun _ => .await .other (fun _ => .execute (fun outcome written =>
    match outcome, written with
    | .returned, some .succeeded => succeedRow false stopped
    | .cancelled, none | .cancelled, some .succeeded => cancelRow false stopped stopped
    | .failed, none | .failed, some .succeeded => failRow true true stopped
    | .endpointChanged, none | .expired, none => failRow false false stopped
    | _, _ => .nothing)) stopped) .returned

end Routine

/-- How the worker comes to finish a task: from a claim, from the scan of the
orphans at start-up, or from the dispatch of what the scan found resumable.  A
claim that finds its pool full is only put back. -/
inductive Way where
  | claimed (taskType : FreeTaskType)
  | claimedWithoutCapacity
  | scannedCancelling
  | scannedRunning (mediaType : MediaType)
  | resumed
  | resumedWithoutCapacity
  deriving DecidableEq, Repr

namespace Way

/-- The status that the claim or the scan has seen. -/
@[simp] def seen : Way → TaskStatus
  | .scannedCancelling => .cancelling
  | _ => .running

open Routine in
def routine : Way → Routine
  | .claimed taskType => processTask taskType
  | .claimedWithoutCapacity => .await (.mark .failed) (fun _ => .returned) .nothing
  | .scannedCancelling => cancelRow true .returned .nothing
  -- a video is failed here when it cannot be resumed
  | .scannedRunning .image | .scannedRunning .video => failRow true true .nothing
  | .scannedRunning .audio => failRow false false .nothing
  | .scannedRunning .postprocess => .await (.mark .queued) (fun changed =>
      if changed then .await (.sync .queued) (fun _ => .returned) .nothing
      else cancelRow true .returned .nothing) .nothing
  | .resumed => runOne
  | .resumedWithoutCapacity => failRow false false .nothing

end Way

/-- A free task in the hands of the worker. -/
structure Handling where
  way : Way
  routine : Routine
  row : TaskStatus
  record : CreationRecord
  left : List Effect

inductive FreeEvent where
  /-- `cancel_task` of a client. -/
  | cancelTask
  /-- A router writes the record, for example `cancel_free_creation`. -/
  | writeRecord (record : CreationRecord)
  | proceed
  | requeueRaises
  /-- `cutting` is what a thread of an executor that was cut still writes. -/
  | executorEnds (outcome : FreeOutcome) (written cutting : Option TaskStatus)
  | signal
  | finishLeft (index : Nat)
  | dropLeft (index : Nat)
  | drain
  deriving DecidableEq, Repr

namespace Handling

section Model

variable (taskId : String) (state : Handling)

def cancelTask : TaskStatus → TaskStatus
  | .running => .cancelling
  | .queued => .cancelled
  | row => row

def perform (effect : Effect) : Handling :=
  { state with row := effect.row state.row, record := effect.record taskId state.record }

/-- No signal reaches what the main loop awaits. -/
def signal : Option Handling :=
  match state.routine with
  | .await _ _ .nothing => none
  | .await effect _ cut =>
    some { state with
      routine := cut
      left := state.left ++ if state.routine.isRetried then [] else [effect] }
  | _ => none

def executorEnds (outcome : FreeOutcome) (written cutting : Option TaskStatus) :
    Option Handling :=
  match state.routine with
  | .execute ends =>
    match ends outcome written with
    | .nothing => none
    | routine =>
      if cutting = none ∨ outcome = .cancelled then
        some { state with
          routine := routine
          record := written.elim state.record (⟨some taskId, ·⟩)
          left := state.left ++ cutting.toList.map .sync }
      else none
  | _ => none

def next : FreeEvent → Option Handling
  | .cancelTask => some { state with row := cancelTask state.row }
  | .writeRecord record => some { state with record := record }
  | .proceed =>
    match state.routine with
    | .await effect next _ =>
      some { state.perform taskId effect with routine := next (effect.changes state.row) }
    | _ => none
  | .requeueRaises =>
    match state.routine with
    | .await (.mark .queued) next _ => some { state with routine := next false }
    | _ => none
  | .executorEnds outcome written cutting => state.executorEnds taskId outcome written cutting
  | .signal => state.signal
  | .finishLeft index =>
    state.left[index]?.map fun effect =>
      { state.perform taskId effect with left := state.left.eraseIdx index }
  | .dropLeft index =>
    match state.left[index]? with
    | some (.mark _) | none => none
    | _ => some { state with left := state.left.eraseIdx index }
  | .drain =>
    match state.routine with
    | .raised => some { state.perform taskId (.mark .cancelled) with routine := .returned }
    | _ => none

/-- The worker has come to the task on some way and found some record. -/
def system : TransitionSystem Handling FreeEvent :=
  { initial := fun state => ∃ way record, state = ⟨way, way.routine, way.seen, record, []⟩
    step := fun state event after => state.next taskId event = some after }

/-- The worker is done with the task. -/
def isDone : Bool :=
  match state.routine, state.left with
  | .returned, [] => true
  | _, _ => false

/-! ## Handlings that keep the record in step -/

/-- No `cancel_task` comes before the success of a resume is marked. -/
def Unovertaken (way : Way) (effect : Effect) (row : TaskStatus) : Prop :=
  way = .resumed → effect = .mark .succeeded → row = .running

/-- The record is written by the executor, or by what handles its outcome. -/
def Tells (way : Way) (outcome : FreeOutcome) : Prop :=
  outcome ∉ [.unpublished, .endpointChanged, .expired] ∧
    (way = .resumed → outcome ≠ .cancelled)

end Model

/-- What `cancel_task` may have made of the row. -/
def Turns (row later : TaskStatus) : Prop :=
  later = row ∨ row = .running ∧ later = .cancelling

variable {taskId : String} {way : Way}

/-- From here every timely continuation ends with a record that follows. -/
def Keeps (taskId : String) (way : Way) : Routine → TaskStatus → CreationRecord → Prop
  | .nothing, _, _ => True
  | .returned, row, record => ∀ later, Turns row later → record.Follows taskId later
  | .raised, row, record => ∀ later, Turns row later →
      record.Follows taskId ((Effect.mark .cancelled).row later)
  | .await effect next cut, row, record =>
    (∀ later, Turns row later → Unovertaken way effect later →
      Keeps taskId way (next (effect.changes later)) (effect.row later)
        (effect.record taskId record)) ∧
    (effect = .mark .queued → Keeps taskId way (next false) row record) ∧
    ((Routine.await effect next cut).isRetried = true → Keeps taskId way cut row record)
  | .execute ends, row, _ => ∀ outcome written record, Tells way outcome →
      Keeps taskId way (ends outcome written) row (written.elim record (⟨some taskId, ·⟩))

theorem Turns.trans {row middle later : TaskStatus} (first : Turns row middle)
    (second : Turns middle later) : Turns row later := by
  unfold Turns at *
  grind

theorem Keeps.later {routine : Routine} {row later : TaskStatus} {record : CreationRecord}
    (keeps : Keeps taskId way routine row record) (turns : Turns row later) :
    Keeps taskId way routine later record := by
  induction routine generalizing row record with
  | nothing => trivial
  | returned | raised =>
    intro last turned
    exact keeps last (turns.trans turned)
  | await effect next cut induction inductionCut =>
    obtain ⟨proceeds, requeues, retries⟩ := keeps
    exact ⟨fun last turned => proceeds last (turns.trans turned),
      fun requeued => induction false (requeues requeued) turns,
      fun retried => inductionCut (retries retried) turns⟩
  | execute ends induction =>
    intro outcome written record tells
    exact induction outcome written (keeps outcome written record tells) turns

theorem Keeps.rest {next cut : Routine} {row : TaskStatus} {record : CreationRecord}
    (keeps : Keeps taskId way next row record) :
    Keeps taskId way (.await .other (fun _ => next) cut) row record :=
  ⟨fun _ turns _ => keeps.later turns, nofun, nofun⟩

@[simp] theorem follows_sync (record : CreationRecord) (status : TaskStatus) :
    (record.sync taskId status).Follows taskId status := by
  intro named
  unfold CreationRecord.sync at named ⊢
  split at named
  · next same => rw [if_pos same]
  · next other =>
    rw [named] at other
    exact absurd rfl other

@[simp] theorem follows_written (written row : TaskStatus) :
    CreationRecord.Follows taskId ⟨some taskId, written⟩ row ↔ written = row := by
  simp [CreationRecord.Follows]

end Handling

end MatrixSpooll.Worker
