import MatrixSpooll.Library.Entries
import MatrixSpooll.Queue.Repository

/-!
# Paid submissions

The columns that guard a paid video submission, and the runs in which claims,
requeues, crashes and resumes let several executions of one task race for them.
-/

namespace MatrixSpooll.Queue

open Library

/-- The columns of a task row that are written around a paid submission. -/
structure SubmissionColumns where
  executionCheckpointJson : Option String
  providerJobId : Option String
  providerEndpoint : Option String
  submittedBaseUrl : Option String
  deriving DecidableEq, Repr

def SubmissionColumns.null : SubmissionColumns :=
  { executionCheckpointJson := none
    providerJobId := none
    providerEndpoint := none
    submittedBaseUrl := none }

/-- The `tasks` table with the submission columns of every row. -/
structure PaidQueue where
  queue : TaskQueue
  columns : String → SubmissionColumns

namespace PaidQueue

variable (store : PaidQueue)

/-- `persist_provider_job_id`, without a guard on the status. -/
def persistProviderJobId (taskId jobId : String) (endpoint baseUrl : Option String) : PaidQueue :=
  let row := store.columns taskId
  { store with
    columns := Function.update store.columns taskId
      { row with
        providerJobId := some jobId
        providerEndpoint := endpoint.or row.providerEndpoint
        submittedBaseUrl := baseUrl.or row.submittedBaseUrl } }

/-- The `WHERE` clause of `persist_execution_checkpoint`. -/
def mayCheckpoint (taskId : String) : Bool :=
  let row := store.columns taskId
  match store.queue.find? taskId with
  | none => false
  | some task =>
    (task.taskType ∈ ["video", "reference_video"]) &&
      (task.status = .running) && row.executionCheckpointJson.isNone &&
      row.providerJobId.isNone

def persistExecutionCheckpoint (now : Nat)
    (taskId checkpointJson providerId : String) : Except String PaidQueue :=
  if store.mayCheckpoint taskId then
    .ok
      { queue := store.queue.persistExecutionProviderId now taskId providerId
        columns := Function.update store.columns taskId
          { store.columns taskId with
            executionCheckpointJson := some checkpointJson } }
  else
    .error ("execution checkpoint persistence guard rejected task: " ++ taskId)

end PaidQueue

/-! ## Executions -/

inductive ExecutionPhase where
  | executing
  | submitting
  | resuming
  | ended
  deriving DecidableEq, Repr

/-- One coroutine on a task; `passed` is the checkpoint it got accepted. -/
structure PaidExecution where
  taskId : String
  phase : ExecutionPhase
  passed : Option String
  deriving DecidableEq, Repr

structure PaidRun where
  store : PaidQueue
  executions : List PaidExecution

/-- What can happen next.  Every repository operation may come at any time, so
the orphan scan, the requeues and the cancellations need no events of their
own; a resumed task polls its job and never reaches the checkpoint. -/
inductive PaidEvent where
  | repository (op : RepositoryOp)
  | claim (now : Nat) (mediaType : String)
      (poolFullProviders excludeTaskIds : List String)
  | resume (taskId : String)
  | checkpoint (now execution : Nat) (checkpointJson providerId : String)
  | storeJob (execution : Nat) (jobId : String)
      (endpoint baseUrl : Option String)
  | stop (execution : Nat)
  deriving DecidableEq, Repr

namespace PaidRun

def start (state : PaidRun) (taskId : String) (phase : ExecutionPhase) : PaidRun :=
  { state with
    executions := state.executions ++ [⟨taskId, phase, none⟩] }

def next (text : FailureText) (state : PaidRun) : PaidEvent → Option PaidRun
  | .repository op =>
    some { state with
      store := { state.store with
        queue := state.store.queue.applyAny text op } }
  | .claim now mediaType poolFullProviders excludeTaskIds =>
    match state.store.queue.claimNext now mediaType poolFullProviders excludeTaskIds with
    | (_, none) => none
    | (queue, some task) =>
      some ({ state with store := { state.store with queue := queue } }.start
        task.taskId .executing)
  | .resume taskId => some (state.start taskId .resuming)
  | .checkpoint now execution checkpointJson providerId =>
    match state.executions[execution]? with
    | some ⟨taskId, .executing, none⟩ =>
      match state.store.persistExecutionCheckpoint now taskId checkpointJson providerId with
      | .ok store => some
          { store := store
            executions := state.executions.set execution
              ⟨taskId, .submitting, some checkpointJson⟩ }
      -- the executor raises and never reaches the provider
      | .error _ => some { state with
          executions := state.executions.set execution ⟨taskId, .ended, none⟩ }
    | _ => none
  | .storeJob execution jobId endpoint baseUrl =>
    match state.executions[execution]? with
    | some ⟨taskId, .submitting, _⟩ => some { state with
        store := state.store.persistProviderJobId taskId jobId endpoint baseUrl }
    | _ => none
  | .stop execution =>
    match state.executions[execution]? with
    | some stopped => some { state with
        executions := state.executions.set execution
          { stopped with phase := .ended } }
    | none => none

/-- Runs from an empty table. -/
def system (text : FailureText) : TransitionSystem PaidRun PaidEvent :=
  .ofFunction ⟨⟨.empty, fun _ => .null⟩, []⟩ (next text)

/-- An execution that got past the checkpoint finds it in its row, and no other
execution of the task got past it. -/
structure Guarded (state : PaidRun) : Prop where
  stored : ∀ execution ∈ state.executions, ∀ checkpointJson,
    execution.passed = some checkpointJson →
    (state.store.columns execution.taskId).executionCheckpointJson = some checkpointJson
  unique : ∀ (first second : Nat) (one other : PaidExecution), state.executions[first]? = some one →
    state.executions[second]? = some other →
    one.passed.isSome = true → other.passed.isSome = true →
    one.taskId = other.taskId → first = second

/-- What a step does: a stored checkpoint stays, and an execution has passed
where it had before or where it passes now, with no checkpoint stored yet. -/
structure Step (state after : PaidRun) (passing : Option Nat) : Prop where
  stays : ∀ taskId checkpointJson,
    (state.store.columns taskId).executionCheckpointJson = some checkpointJson →
    (after.store.columns taskId).executionCheckpointJson = some checkpointJson
  kept : ∀ (index : Nat) execution checkpointJson, after.executions[index]? = some execution →
    execution.passed = some checkpointJson →
    (∃ earlier, state.executions[index]? = some earlier ∧ earlier.taskId = execution.taskId ∧
      earlier.passed = some checkpointJson) ∨
    (passing = some index ∧ (state.store.columns execution.taskId).executionCheckpointJson = none ∧
      (after.store.columns execution.taskId).executionCheckpointJson = some checkpointJson)

variable {text : FailureText} {state after : PaidRun}

theorem step_start (taskId : String) (phase : ExecutionPhase)
    {store : PaidQueue} (sameColumns : store.columns = state.store.columns) :
    Step state ({ state with store := store }.start taskId phase) none := by
  refine ⟨fun other json stored => by simp [start, sameColumns, stored], ?_⟩
  intro index execution json found passed
  simp only [start, getElem?_snoc] at found
  split at found
  · cases found
    cases passed
  · exact .inl ⟨execution, found, rfl, passed⟩

theorem step_set {index : Nat} {old new : PaidExecution}
    (found : state.executions[index]? = some old)
    (sameTask : old.taskId = new.taskId) (samePassed : old.passed = new.passed) :
    Step state { state with executions := state.executions.set index new }
      none := by
  refine ⟨fun _ _ => id, ?_⟩
  intro other execution json stored passed
  rw [getElem?_set_found found] at stored
  split at stored
  case isTrue same =>
    cases stored
    exact .inl ⟨old, same ▸ found, sameTask, samePassed.trans passed⟩
  case isFalse => exact .inl ⟨execution, stored, rfl, passed⟩

theorem next_step {event : PaidEvent} (step : state.next text event = some after) :
    ∃ passing, Step state after passing := by
  cases event with
  | repository op =>
    cases step
    exact ⟨none, fun _ _ => id, fun _ execution _ found passed =>
      .inl ⟨execution, found, rfl, passed⟩⟩
  | claim now mediaType poolFullProviders excludeTaskIds =>
    simp only [next] at step
    split at step <;> cases step
    exact ⟨none, step_start _ _ rfl⟩
  | resume taskId =>
    cases step
    exact ⟨none, step_start taskId .resuming rfl⟩
  | checkpoint now index checkpointJson providerId =>
    simp only [next] at step
    split at step
    case h_1 taskId found =>
      split at step <;> cases step
      case h_1 accepted =>
        unfold PaidQueue.persistExecutionCheckpoint at accepted
        split at accepted <;> cases accepted
        rename_i may
        have free : (state.store.columns taskId).executionCheckpointJson = none := by
          unfold PaidQueue.mayCheckpoint at may
          split at may
          · cases may
          · simp only [Bool.and_eq_true, Option.isNone_iff_eq_none] at may
            exact may.1.2
        refine ⟨some index, ?_, ?_⟩
        · intro other json stored
          have different : other ≠ taskId := by
            rintro rfl
            rw [free] at stored
            cases stored
          exact (congrArg _ (Function.update_of_ne different _ _)).trans stored
        · intro other execution json stored passed
          rw [getElem?_set_found found] at stored
          split at stored
          case isTrue same =>
            cases stored
            cases passed
            dsimp only
            rw [Function.update_self]
            exact .inr ⟨congrArg some same.symm, free, rfl⟩
          case isFalse => exact .inl ⟨execution, stored, rfl, passed⟩
      case h_2 => exact ⟨none, step_set found rfl rfl⟩
    case h_2 => cases step
  | storeJob index jobId endpoint baseUrl =>
    simp only [next] at step
    split at step <;> cases step
    refine ⟨none, ?_, fun _ execution _ found passed =>
      .inl ⟨execution, found, rfl, passed⟩⟩
    intro other json stored
    simp only [PaidQueue.persistProviderJobId, Function.update_apply]
    split
    case isTrue same => rw [← same, stored]
    case isFalse => exact stored
  | stop index =>
    simp only [next] at step
    split at step <;> cases step
    case h_1 found => exact ⟨none, step_set found rfl rfl⟩

theorem Guarded.step {passing : Option Nat} (guarded : state.Guarded)
    (step : Step state after passing) : after.Guarded := by
  constructor
  · intro execution member json passed
    obtain ⟨index, found⟩ := List.getElem?_of_mem member
    rcases step.kept index execution json found passed with
      ⟨earlier, old, sameTask, wasPassed⟩ | ⟨_, _, stored⟩
    · rw [← sameTask]
      exact step.stays _ _ (guarded.stored earlier (List.mem_of_getElem? old) json wasPassed)
    · exact stored
  · -- an execution that had passed has its checkpoint stored, so none passes
    have apart : ∀ {earlier : PaidExecution} {index : Nat} {json : String},
        state.executions[index]? = some earlier → earlier.passed = some json →
        (state.store.columns earlier.taskId).executionCheckpointJson ≠
          none := by
      intro earlier index json old passed free
      rw [guarded.stored earlier (List.mem_of_getElem? old) json passed] at free
      cases free
    intro first second one other found others passed otherPassed same
    obtain ⟨json, isJson⟩ := Option.isSome_iff_exists.mp passed
    obtain ⟨otherJson, isOther⟩ := Option.isSome_iff_exists.mp otherPassed
    rcases step.kept first one json found isJson with
      ⟨old, oldFound, oldTask, wasPassed⟩ | ⟨isFirst, free, _⟩
    all_goals rcases step.kept second other otherJson others isOther with
      ⟨last, lastFound, lastTask, lastPassed⟩ | ⟨isSecond, alsoFree, _⟩
    · exact guarded.unique first second old last oldFound lastFound
        (by rw [wasPassed]; rfl) (by rw [lastPassed]; rfl)
        (oldTask.trans (same.trans lastTask.symm))
    · rw [← same, ← oldTask] at alsoFree
      exact absurd alsoFree (apart oldFound wasPassed)
    · rw [same, ← lastTask] at free
      exact absurd free (apart lastFound lastPassed)
    · exact Option.some.inj (isFirst.symm.trans isSecond)

theorem guarded_invariant (text : FailureText) : (system text).Invariant Guarded := by
  refine { initially := ?_, preserved := ?_ }
  · intro state initially
    cases initially
    exact { stored := by simp, unique := by simp }
  · intro state event after guarded step
    obtain ⟨_, spec⟩ := next_step step
    exact guarded.step spec

/-- In every run at most one execution of a task gets past the checkpoint, its
checkpoint is the one in the row, and nothing changes it afterwards. -/
theorem submitted_at_most_once (text : FailureText) (reachable : (system text).Reachable state) :
    (∀ (first second : Nat) (one other : PaidExecution), state.executions[first]? = some one →
      state.executions[second]? = some other →
      one.passed.isSome = true → other.passed.isSome = true →
      one.taskId = other.taskId → first = second) ∧
    (∀ execution ∈ state.executions, ∀ checkpointJson, execution.passed = some checkpointJson →
      (state.store.columns execution.taskId).executionCheckpointJson = some checkpointJson) ∧
    ∀ (events : List PaidEvent) (later : PaidRun) (taskId : String)
      (checkpointJson : String), (system text).Run state events later →
      (state.store.columns taskId).executionCheckpointJson = some checkpointJson →
      (later.store.columns taskId).executionCheckpointJson = some checkpointJson := by
  have guarded := (guarded_invariant text).reachable reachable
  refine ⟨guarded.unique, guarded.stored, ?_⟩
  intro events later taskId checkpointJson run
  exact run.preserves (fun _ _ _ stored step => (next_step step).elim
    (fun _ spec => spec.stays taskId checkpointJson stored))

/-- Two executions of one task reach the checkpoint; the second is refused. -/
theorem second_execution_refused : ∃ state, (system .verbatim).Reachable state ∧
      state.executions = [⟨"clip", .submitting, some "first"⟩, ⟨"clip", .ended, none⟩] ∧
      (state.store.columns "clip").executionCheckpointJson = some "first" := by
  have reachable : (system .verbatim).Reachable _ :=
    ⟨_, [.repository (.call (.enqueue 1 "clip" (.plain "video" "project" "shot" none))),
      .claim 2 "video" [] [], .repository (.requeueSingleTask 3 "clip"),
      .claim 4 "video" [] [], .checkpoint 5 0 "first" "ark",
      .checkpoint 6 1 "second" "ark"], rfl, .of_foldlM (fun _ _ _ => id) rfl⟩
  exact ⟨_, reachable, rfl,
    (submitted_at_most_once .verbatim reachable).2.1 _ List.mem_cons_self _ rfl⟩

end PaidRun

end MatrixSpooll.Queue
