import MatrixSpooll.Library.Entries
import MatrixSpooll.Worker.SlotTable

/-!
# Executions and their slots

The part of the worker that decides who occupies a slot: the slot table, the
executions behind its futures, and one semaphore for each resume dispatch.
Every function below is one uninterrupted stretch of a coroutine, from one
suspension point to the next.

A claimed execution (`_process_task`) is registered as inflight and removed by
the next drain after it ends.  A resume execution (`_run_one` of
`_dispatch_provider_bucket`) is registered as pending, promoted when it gets a
permit, and releases its slot in its own `finally`.  A coroutine that is
cancelled before its first step never runs its body.
-/

namespace MatrixSpooll.Worker

open Library

inductive Phase where
  /-- The future exists, its coroutine has not run yet. -/
  | created
  /-- A resume execution waits for its semaphore. -/
  | waiting
  | running
  /-- A claimed execution has requeued its task and is about to return. -/
  | leaving
  | done
  deriving DecidableEq, Repr

structure Execution where
  taskId : String
  key : BucketKey
  /-- The dispatch of a resume execution; `none` for a claimed one. -/
  dispatch : Option Nat
  phase : Phase
  cancelRequested : Bool
  deriving DecidableEq, Repr

def Execution.claimed (key : BucketKey) (taskId : String) : Execution :=
  { taskId := taskId
    key := key
    dispatch := none
    phase := .created
    cancelRequested := false }

def Execution.resumed (provider : String) (index : Nat) (taskId : String) : Execution :=
  { taskId := taskId
    key := (provider, "video")
    dispatch := some index
    phase := .created
    cancelRequested := false }

/-- One call of `_dispatch_provider_bucket` that got past its capacity check,
with the free permits of its semaphore. -/
structure Dispatch where
  provider : String
  permits : Nat
  deriving DecidableEq, Repr

structure Occupancy where
  slots : SlotTable
  executions : List Execution
  dispatches : List Dispatch

namespace Occupancy

def empty : Occupancy :=
  { slots := .empty
    executions := []
    dispatches := [] }

variable (state : Occupancy) (future : Nat)

/-- `future.done()`. -/
def isDone : Bool :=
  match state.executions[future]? with
  | some execution => execution.phase = .done
  | none => false

/-- `asyncio.create_task` followed by `register`. -/
def spawn (execution : Execution) (pending : Bool) : Occupancy :=
  { state with
    slots := state.slots.register execution.key execution.taskId
      { task := state.executions.length
        pending := pending }
    executions := state.executions ++ [execution] }

/-- The claim loop registers a claimed task. -/
def enrol (key : BucketKey) (taskId : String) : Occupancy :=
  state.spawn (.claimed key taskId) false

/-- The loop of `_dispatch_provider_bucket` that creates its sub-tasks and
registers each of them as pending. -/
def dispatchBucket (provider : String) (capacity : Nat) (taskIds : List String) : Occupancy :=
  let index := state.dispatches.length
  taskIds.foldl (fun current taskId => current.spawn (.resumed provider index taskId) true)
    { state with
      dispatches := state.dispatches ++ [⟨provider, capacity⟩] }

def setExecution (execution : Execution) : Occupancy :=
  { state with executions := state.executions.set future execution }

def setPermits (index permits : Nat) : Occupancy :=
  { state with
    dispatches := state.dispatches.modify index
      (fun dispatch => { dispatch with permits := permits }) }

/-- The first step of a coroutine. -/
def start : Option Occupancy :=
  match state.executions[future]? with
  | some execution =>
    match execution.phase with
    | .created =>
      if execution.cancelRequested then
        some (state.setExecution future { execution with phase := .done })
      else
        match execution.dispatch with
        | none =>
          some (state.setExecution future
            { execution with phase := .running })
        | some _ =>
          some (state.setExecution future
            { execution with phase := .waiting })
    | _ => none
  | none => none

/-- `sem.acquire()` returns and the occupant is promoted. -/
def acquire : Option Occupancy :=
  match state.executions[future]? with
  | some execution =>
    match execution.dispatch, execution.phase with
    | some index, .waiting =>
      match state.dispatches[index]? with
      | some dispatch =>
        if dispatch.permits = 0 || execution.cancelRequested then none
        else
          let promoted : Occupancy := { state with
            slots := state.slots.promote execution.key execution.taskId }
          some ((promoted.setPermits index (dispatch.permits - 1)
            ).setExecution future { execution with phase := .running })
      | none => none
    | _, _ => none
  | none => none

/-- A claimed execution has put its task back into the queue. -/
def leave : Option Occupancy :=
  match state.executions[future]? with
  | some execution =>
    match execution.dispatch, execution.phase with
    | none, .running =>
      some (state.setExecution future { execution with phase := .leaving })
    | _, _ => none
  | none => none

/-- The last stretch of a coroutine.  A resume execution ends after it ran or
because it was cancelled while it waited; its `finally` returns the permit it
holds and releases its slot. -/
def finish : Option Occupancy :=
  match state.executions[future]? with
  | some execution =>
    let ended := { execution with phase := .done }
    let released : Occupancy := { state with
      slots := state.slots.release execution.key execution.taskId }
    match execution.dispatch, execution.phase with
    | none, .running => some (state.setExecution future ended)
    | none, .leaving => some (state.setExecution future ended)
    | some index, .running =>
      match state.dispatches[index]? with
      | some dispatch =>
        some ((released.setPermits index (dispatch.permits + 1) ).setExecution future ended)
      | none => none
    | some _, .waiting =>
      if execution.cancelRequested then
        some (released.setExecution future ended)
      else none
    | _, _ => none
  | none => none

/-- `request_cancel`: the state and whether a future was cancelled. -/
def requestCancel (taskId : String) : Occupancy × Bool :=
  match state.slots.findByTask taskId with
  | some future =>
    match state.executions[future]? with
    | some execution =>
      if execution.phase = .done then (state, false)
      else
        (state.setExecution future
          { execution with cancelRequested := true }, true)
    | none => (state, false)
  | none => (state, false)

def drain : Occupancy :=
  { state with slots := (state.slots.drainFinished state.isDone).1 }

/-! ## What each step can do -/

variable {state : Occupancy} {future : Nat}

theorem getElem?_setExecution {old : Execution} (found : state.executions[future]? = some old)
    (execution : Execution) (other : Nat) :
    (state.setExecution future execution).executions[other]? =
      if other = future then some execution else state.executions[other]? :=
  getElem?_set_found found execution other

theorem getElem?_spawn (state : Occupancy) (execution : Execution) (pending : Bool) (future : Nat) :
    (state.spawn execution pending).executions[future]? =
      if future = state.executions.length then some execution
      else state.executions[future]? :=
  getElem?_snoc state.executions execution future

/-- The loop of a dispatch: `assertion rest` holds before the sub-tasks of
`rest` are created. -/
theorem dispatchBucket_loop (assertion : List String → Occupancy → Prop)
    (state : Occupancy) (provider : String) (capacity : Nat)
    (taskIds : List String) (entry : assertion taskIds { state with
      dispatches := state.dispatches ++ [⟨provider, capacity⟩] })
    (spawned : ∀ taskId rest current, assertion (taskId :: rest) current →
      assertion rest (current.spawn (.resumed provider state.dispatches.length taskId) true)) :
    assertion [] (state.dispatchBucket provider capacity taskIds) :=
  foldl_loop assertion spawned entry

variable {after : Occupancy}

theorem start_cases (result : state.start future = some after) :
    ∃ execution, state.executions[future]? = some execution ∧
      execution.phase = .created ∧ ((execution.cancelRequested = true ∧
          after = state.setExecution future
            { execution with phase := .done }) ∨
        (execution.cancelRequested = false ∧ execution.dispatch = none ∧
          after = state.setExecution future
            { execution with phase := .running }) ∨
        (execution.cancelRequested = false ∧ (∃ index, execution.dispatch = some index) ∧
          after = state.setExecution future
            { execution with phase := .waiting })) := by
  unfold start at result
  repeat' split at result
  all_goals cases result
  · rename_i execution found _ created cancelled
    exact ⟨execution, found, created, .inl ⟨cancelled, rfl⟩⟩
  · rename_i execution found _ created free _ claimed
    exact ⟨execution, found, created, .inr (.inl ⟨Bool.eq_false_iff.mpr free, claimed, rfl⟩)⟩
  · rename_i execution found _ created free _ index resumed
    exact ⟨execution, found, created,
      .inr (.inr ⟨Bool.eq_false_iff.mpr free, ⟨index, resumed⟩, rfl⟩)⟩

theorem acquire_cases (result : state.acquire future = some after) :
    ∃ execution index dispatch, state.executions[future]? = some execution ∧
      execution.dispatch = some index ∧ execution.phase = .waiting ∧
      state.dispatches[index]? = some dispatch ∧ dispatch.permits ≠ 0 ∧
      after = (({ state with
        slots := state.slots.promote execution.key execution.taskId
          } : Occupancy).setPermits index (dispatch.permits - 1)
            ).setExecution future { execution with phase := .running } := by
  unfold acquire at result
  repeat' split at result
  all_goals cases result
  rename_i execution found _ _ index resumed waiting _ dispatch dispatched free
  simp only [Bool.or_eq_true, decide_eq_true_eq, not_or] at free
  exact ⟨execution, index, dispatch, found, resumed, waiting, dispatched, free.1, rfl⟩

theorem leave_cases (result : state.leave future = some after) :
    ∃ execution, state.executions[future]? = some execution ∧
      execution.dispatch = none ∧ execution.phase = .running ∧
      after = state.setExecution future
        { execution with phase := .leaving } := by
  unfold leave at result
  repeat' split at result
  all_goals cases result
  rename_i execution found _ _ claimed running
  exact ⟨execution, found, claimed, running, rfl⟩

theorem finish_cases (result : state.finish future = some after) :
    ∃ execution, state.executions[future]? = some execution ∧
      ((execution.dispatch = none ∧ after = state.setExecution future
            { execution with phase := .done }) ∨
        (∃ index dispatch, execution.dispatch = some index ∧ execution.phase = .running ∧
          state.dispatches[index]? = some dispatch ∧
          after = (({ state with
            slots := state.slots.release execution.key execution.taskId
              } : Occupancy).setPermits index (dispatch.permits + 1)
                ).setExecution future { execution with phase := .done }) ∨
        (∃ index, execution.dispatch = some index ∧ execution.phase = .waiting ∧
          after = ({ state with
            slots := state.slots.release execution.key execution.taskId
              } : Occupancy).setExecution future
                { execution with phase := .done })) := by
  unfold finish at result
  split at result
  · rename_i execution found
    refine ⟨execution, found, ?_⟩
    simp only at result
    repeat' split at result
    all_goals cases result
    · rename_i claimed _
      exact .inl ⟨claimed, rfl⟩
    · rename_i claimed _
      exact .inl ⟨claimed, rfl⟩
    · rename_i index resumed running _ dispatch dispatched
      exact .inr (.inl ⟨index, dispatch, resumed, running, dispatched, rfl⟩)
    · rename_i index resumed waiting _
      exact .inr (.inr ⟨index, resumed, waiting, rfl⟩)
  · cases result

theorem requestCancel_cases (state : Occupancy) (taskId : String) :
    (state.requestCancel taskId).1 = state ∨
      ∃ future execution, state.slots.findByTask taskId = some future ∧
        state.executions[future]? = some execution ∧
        execution.phase ≠ .done ∧
        (state.requestCancel taskId).1 = state.setExecution future
          { execution with cancelRequested := true } := by
  unfold requestCancel
  repeat' split
  · exact .inl rfl
  · rename_i future holder _ execution found unfinished
    exact .inr ⟨future, execution, holder, found, unfinished, rfl⟩
  all_goals exact .inl rfl

end Occupancy

end MatrixSpooll.Worker
