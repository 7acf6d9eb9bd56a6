import MatrixSpooll.Queue.Repository
import MatrixSpooll.Worker.Occupancy

/-!
# The worker as a transition system

`GenerationWorker` of `lib/generation_worker.py` between its suspension points:
the main loop with its drain, orphan scan and claim cycle, the executions it
spawns, the background dispatch of resumable orphans, and `request_cancel`.
The database is the queue of `Queue.Repository`; other parties, and the parts
of an execution that only write to the database, act on it by `database`
events.  The provider of a claimed task and the grouping of orphans are chosen
by the event, since they come from configuration and checkpoints.

Shutdown and changes of the capacity table are left out.
-/

namespace MatrixSpooll.Worker

open Library Queue

/-- Where the main loop is suspended. -/
inductive MainLoop where
  | idle
  /-- Inside `_claim_tasks`, before the next `claim_next_task`. -/
  | scanning (media : String) (later attempted : List String)
  /-- Inside `_claim_tasks`, while the provider of a claimed task is found. -/
  | holding (taskId media : String) (later attempted : List String)
  deriving DecidableEq, Repr

structure GenerationWorker where
  queue : TaskQueue
  occupancy : Occupancy
  /-- Orphans by provider that the background dispatcher has yet to register. -/
  scanned : List (String × List String)
  mainLoop : MainLoop

inductive Event where
  | database (op : RepositoryOp)
  | drain
  | scanOrphans (buckets : List (String × List String))
  | dispatchBucket (provider : String) (taskIds : List String)
  | beginClaims
  | claimNext (now : Nat)
  | route (now : Nat) (provider : String)
  | start (future : Nat)
  | acquire (future : Nat)
  | providerChanged (now future : Nat) (provider : String)
  | finish (future : Nat)
  | requestCancel (taskId : String)
  deriving DecidableEq, Repr

namespace GenerationWorker

/-- A worker that starts on an existing queue. -/
def onQueue (queue : TaskQueue) : GenerationWorker :=
  { queue := queue
    occupancy := .empty
    scanned := []
    mainLoop := .idle }

variable (text : FailureText) (capacity : CapacityTable) (worker : GenerationWorker) (now : Nat)

def poolFullProviders (media : String) : List String :=
  (worker.occupancy.slots.occupiedProviders media).filter (fun provider =>
    0 < capacity.get provider media && !worker.occupancy.slots.hasRoom (provider, media)
        (capacity.get provider media))

/-- The claim cycle goes on to the next media type. -/
def nextMedia : List String → MainLoop
  | [] => .idle
  | media :: later => .scanning media later []

/-- `_handle_orphan_tasks_on_start` hands over distinct rows that no occupant
of this process works on. -/
def orphansScannable (buckets : List (String × List String)) : Bool :=
  let taskIds := buckets.flatMap Prod.snd
  taskIds.Nodup && taskIds.all (fun taskId => (worker.queue.find? taskId).isSome &&
      taskId ∉ worker.occupancy.slots.activeTaskIds)

def claimNext : Option GenerationWorker :=
  match worker.mainLoop with
  | .scanning media later attempted =>
    let (queue, claimed) := worker.queue.claimNext now media
      (worker.poolFullProviders capacity media) attempted
    match claimed with
    | none =>
      some { worker with
        queue := queue
        mainLoop := nextMedia later }
    | some task =>
      some { worker with
        queue := queue
        mainLoop := .holding task.taskId media later attempted }
  | _ => none

/-- The provider of the claimed task is known: fail it, put it back, or
register its execution. -/
def route (provider : String) : Option GenerationWorker :=
  match worker.mainLoop with
  | .holding taskId media later attempted =>
    let limit := capacity.get provider media
    if limit = 0 then
      some { worker with
        queue := (TaskQueue.markFailed text worker.queue now taskId
          (text.encodeFailure "provider_unsupported_media"
            [("provider_id", provider), ("media_type", media)])).1
        mainLoop := .scanning media later attempted }
    else if worker.occupancy.slots.hasRoom (provider, media) limit then
      some { worker with
        occupancy := worker.occupancy.enrol (provider, media) taskId
        mainLoop := .scanning media later attempted }
    else
      let persisted :=
        worker.queue.persistExecutionProviderId now taskId provider
      some { worker with
        queue := (persisted.requeueSingleTask now taskId).1
        mainLoop :=
          if media = "video" then
            .scanning media later (attempted ++ [taskId])
          else nextMedia later }
  | _ => none

/-- `DispatchProviderChanged`: the task goes back to the queue before its
execution returns.  When the row is no longer running the execution goes on to
settle it. -/
def providerChanged (future : Nat) (provider : String) : Option GenerationWorker :=
  match worker.occupancy.executions[future]? with
  | some execution =>
    if execution.key.2 = "video" then
      match worker.occupancy.leave future with
      | some left =>
        let persisted := worker.queue.persistExecutionProviderId now execution.taskId provider
        let (requeued, affected) :=
          persisted.requeueSingleTask now execution.taskId
        some { worker with
          queue := requeued
          occupancy := if affected = 0 then worker.occupancy else left }
      | none => none
    else none
  | none => none

/-- One stretch between two suspension points. -/
def next : Event → Option GenerationWorker
  | .database op => some { worker with queue := worker.queue.applyAny text op }
  | .drain =>
    if worker.mainLoop = .idle then
      some { worker with occupancy := worker.occupancy.drain }
    else none
  | .scanOrphans buckets =>
    if worker.mainLoop = .idle && worker.orphansScannable buckets then
      some { worker with scanned := worker.scanned ++ buckets }
    else none
  | .dispatchBucket provider taskIds =>
    if (provider, taskIds) ∈ worker.scanned then
      let limit := capacity.get provider "video"
      some { worker with
        occupancy :=
          if limit = 0 then worker.occupancy
          else worker.occupancy.dispatchBucket provider limit taskIds
        scanned := worker.scanned.erase (provider, taskIds) }
    else none
  | .beginClaims =>
    if worker.mainLoop = .idle then
      some { worker with
        mainLoop := nextMedia ["image", "video", "audio", "postprocess"] }
    else none
  | .claimNext now => worker.claimNext capacity now
  | .route now provider => worker.route text capacity now provider
  | .start future =>
    (worker.occupancy.start future).map (fun occupancy => { worker with occupancy := occupancy })
  | .acquire future =>
    (worker.occupancy.acquire future).map (fun occupancy => { worker with occupancy := occupancy })
  | .providerChanged now future provider => worker.providerChanged now future provider
  | .finish future =>
    (worker.occupancy.finish future).map (fun occupancy => { worker with occupancy := occupancy })
  | .requestCancel taskId =>
    some { worker with
      occupancy := (worker.occupancy.requestCancel taskId).1 }

/-- A worker on any queue that a database can hold. -/
def system : TransitionSystem GenerationWorker Event :=
  { initial := fun worker => ∃ queue, worker = onQueue queue
    step := fun worker event after => worker.next text capacity event = some after }

variable {text : FailureText} {capacity : CapacityTable}

theorem reachable_of_events {final : GenerationWorker} (queue : TaskQueue) (events : List Event)
    (result : events.foldlM (next text capacity) (onQueue queue) = some final) :
    (system text capacity).Reachable final :=
  ⟨onQueue queue, events, ⟨queue, rfl⟩, .of_foldlM (fun _ _ _ => id) result⟩

/-! ## One rule for all slot invariants -/

/-- Conditions on the three kinds of step that let something into the table or
cancel it. -/
structure Rules where
  enrol : Occupancy → BucketKey → String → Prop
  dispatch : Occupancy → String → List String → Prop
  cancel : Occupancy → String → Prop

/-- The event meets the rules in the state it starts from. -/
def Allows (capacity : CapacityTable) (rules : Rules) (worker : GenerationWorker) : Event → Prop
  | .route _ provider => ∀ taskId media later attempted,
      worker.mainLoop = .holding taskId media later attempted →
      worker.occupancy.slots.hasRoom (provider, media) (capacity.get provider media) = true →
      rules.enrol worker.occupancy (provider, media) taskId
  | .dispatchBucket provider taskIds =>
    0 < capacity.get provider "video" →
    rules.dispatch worker.occupancy provider taskIds
  | .requestCancel taskId => rules.cancel worker.occupancy taskId
  | _ => True

/-- What has to be shown of a property of the occupancy. -/
structure Preserved (capacity : CapacityTable) (rules : Rules)
    (holds : Occupancy → Prop) : Prop where
  initially : holds .empty
  enrol : ∀ state key taskId, holds state → rules.enrol state key taskId →
    state.slots.hasRoom key (capacity.get key.1 key.2) = true →
    holds (state.enrol key taskId)
  dispatch : ∀ state provider taskIds, holds state → rules.dispatch state provider taskIds →
    0 < capacity.get provider "video" →
    holds (state.dispatchBucket provider (capacity.get provider "video") taskIds)
  start : ∀ state future after, holds state → state.start future = some after → holds after
  acquire : ∀ state future after, holds state → state.acquire future = some after → holds after
  leave : ∀ state future after, holds state → state.leave future = some after → holds after
  finish : ∀ state future after, holds state → state.finish future = some after → holds after
  cancel : ∀ state taskId, holds state → rules.cancel state taskId →
    holds (state.requestCancel taskId).1
  drain : ∀ state, holds state → holds state.drain

variable {rules : Rules} {holds : Occupancy → Prop}

/-- The rule: a property of the occupancy that every allowed operation keeps
holds in every state reached by allowed events. -/
theorem Preserved.invariant (preserved : Preserved capacity rules holds) :
    ((system text capacity).restrict (Allows capacity rules)).Invariant
      (fun worker => holds worker.occupancy) := by
  refine { initially := ?_, preserved := ?_ }
  · intro worker initially
    obtain ⟨queue, same⟩ := initially
    rw [same]
    exact preserved.initially
  · intro worker event after before taken
    obtain ⟨allowed, step⟩ := taken
    change worker.next text capacity event = some after at step
    cases event with
    | database op =>
      cases step
      exact before
    | drain =>
      simp only [next] at step
      split at step <;> cases step
      exact preserved.drain _ before
    | scanOrphans | beginClaims =>
      simp only [next] at step
      split at step <;> cases step
      exact before
    | dispatchBucket provider taskIds =>
      simp only [next] at step
      split at step <;> cases step
      simp only
      split
      · exact before
      · rename_i positive
        have room : 0 < capacity.get provider "video" := Nat.pos_of_ne_zero positive
        exact preserved.dispatch _ _ _ before (allowed room) room
    | claimNext now =>
      simp only [next, claimNext] at step
      split at step
      · split at step
        all_goals
          cases step
          exact before
      · cases step
    | route now provider =>
      simp only [next, GenerationWorker.route] at step
      split at step
      · rename_i taskId media later attempted position
        repeat' split at step
        all_goals cases step
        · exact before
        · next room =>
            exact preserved.enrol _ _ _ before
              (allowed taskId media later attempted position room) room
        all_goals exact before
      · cases step
    | start future =>
      obtain ⟨occupancy, result, same⟩ := Option.map_eq_some_iff.mp step
      cases same
      exact preserved.start _ _ _ before result
    | acquire future =>
      obtain ⟨occupancy, result, same⟩ := Option.map_eq_some_iff.mp step
      cases same
      exact preserved.acquire _ _ _ before result
    | providerChanged now future provider =>
      simp only [next, GenerationWorker.providerChanged] at step
      repeat' split at step
      all_goals cases step
      · exact before
      · next leaves _ => exact preserved.leave _ _ _ before leaves
    | finish future =>
      obtain ⟨occupancy, result, same⟩ := Option.map_eq_some_iff.mp step
      cases same
      exact preserved.finish _ _ _ before result
    | requestCancel taskId =>
      cases step
      exact preserved.cancel _ _ before allowed

end GenerationWorker

end MatrixSpooll.Worker
