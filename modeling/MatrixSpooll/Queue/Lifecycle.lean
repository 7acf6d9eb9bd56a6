import MatrixSpooll.Library.Transition
import Mathlib.Data.List.Basic
import Mathlib.Logic.Relation

/-!
# The life cycle of a task

What the queue is for, without rows and columns: a board of jobs, each with a
status and an optional dependency, and a log of terminal events.  A job is
submitted, started once its dependency succeeded, possibly requeued, and
settled exactly once.  The repository's operations are shown to be sequences
of these steps in `Queue.Refinement`.
-/

namespace MatrixSpooll.Queue

open Library

inductive TaskStatus where
  | queued
  | running
  | cancelling
  | succeeded
  | failed
  | cancelled
  deriving DecidableEq, Repr

namespace TaskStatus

def isTerminal : TaskStatus → Bool
  | succeeded | failed | cancelled => true
  | queued | running | cancelling => false

def isActive : TaskStatus → Bool
  | queued | running | cancelling => true
  | succeeded | failed | cancelled => false

theorem isActive_eq_not_isTerminal (status : TaskStatus) :
    status.isActive = !status.isTerminal := by
  cases status <;> rfl

/-- The status changes a single guarded `UPDATE` of the repository makes. -/
def canBecome : TaskStatus → TaskStatus → Bool
  | queued, running => true
  | running, queued => true
  | running, cancelling => true
  | running, succeeded => true
  | queued, failed => true
  | running, failed => true
  | queued, cancelled => true
  | running, cancelled => true
  | cancelling, cancelled => true
  | _, _ => false

theorem canBecome_active {before after : TaskStatus}
    (change : before.canBecome after = true) : before.isTerminal = false := by
  cases before <;> cases after <;> simp_all [canBecome, isTerminal]

theorem ne_queued_of_isTerminal {status : TaskStatus}
    (terminal : status.isTerminal = true) : status ≠ .queued := by
  intro same
  subst same
  cases terminal

theorem ne_running_of_isTerminal {status : TaskStatus}
    (terminal : status.isTerminal = true) : status ≠ .running := by
  intro same
  subst same
  cases terminal

end TaskStatus

/-- A job on the board. -/
structure Job (Id : Type u) where
  status : TaskStatus
  dependency : Option Id

/-- Jobs by identifier and the log of terminal events. -/
@[ext] structure Board (Id : Type u) where
  job : Id → Option (Job Id)
  log : List (Id × TaskStatus)

namespace Board

variable {Id : Type u} [DecidableEq Id]

def empty : Board Id :=
  { job := fun _ => none
    log := [] }

/-- Entries a job leaves in the log when it takes `status`. -/
def entry (id : Id) (status : TaskStatus) : List (Id × TaskStatus) :=
  if status.isTerminal then [(id, status)] else []

/-- Put a job on the board and log its status if it is terminal. -/
def place (board : Board Id) (id : Id) (job : Job Id) : Board Id :=
  { job := Function.update board.job id (some job)
    log := board.log ++ entry id job.status }

/-- No dependency, or one that succeeded. -/
def Ready (board : Board Id) (dependency : Option Id) : Prop :=
  ∀ parent, dependency = some parent → ∃ job, board.job parent = some job ∧ job.status = .succeeded

inductive Step (board : Board Id) : Board Id → Prop where
  | submit {id : Id} {dependency : Option Id} :
      board.job id = none →
      Step board (board.place id ⟨.queued, dependency⟩)
  | move {id : Id} {before after : TaskStatus} {dependency : Option Id} :
      board.job id = some ⟨before, dependency⟩ →
      before.canBecome after = true →
      (after = .running → board.Ready dependency) →
      Step board (board.place id ⟨after, dependency⟩)

abbrev Steps : Board Id → Board Id → Prop :=
  Relation.ReflTransGen Step

@[simp] theorem place_job_self (board : Board Id) (id : Id) (job : Job Id) :
    (board.place id job).job id = some job := by
  simp [place]

variable {id other : Id}

theorem place_job_other (board : Board Id) (job : Job Id) (different : other ≠ id) :
    (board.place id job).job other = board.job other := by
  simp [place, different]

/-- Give all listed jobs one status, in order. -/
def placeAll (board : Board Id) (ids : List Id) (status : TaskStatus) : Board Id :=
  { job := fun id =>
      if id ∈ ids then
        (board.job id).map (fun job => ⟨status, job.dependency⟩)
      else board.job id
    log := board.log ++ ids.flatMap (fun id => entry id status) }

variable {board : Board Id} {ids : List Id} {job : Job Id}

private theorem placeAll_place {status : TaskStatus}
    (found : board.job id = some job) (fresh : id ∉ ids) :
    (board.place id ⟨status, job.dependency⟩).placeAll ids status =
      board.placeAll (id :: ids) status := by
  unfold placeAll
  congr 1
  · funext other
    by_cases same : other = id
    · subst same
      simp [fresh, found]
    · simp [same, place_job_other _ _ same]
  · simp [place]

variable {after : TaskStatus}

theorem steps_placeAll {before : TaskStatus} (nodup : ids.Nodup)
    (change : before.canBecome after = true) (notStarted : after ≠ .running)
    (present : ∀ id ∈ ids, ∃ job, board.job id = some job ∧ job.status = before) :
    Steps board (board.placeAll ids after) := by
  induction ids generalizing board with
  | nil =>
    have same : board.placeAll [] after = board := by simp [placeAll]
    rw [same]
  | cons id ids induction =>
    rw [List.nodup_cons] at nodup
    obtain ⟨job, found, status⟩ := present id List.mem_cons_self
    have step : Step board (board.place id ⟨after, job.dependency⟩) := by
      have row : board.job id = some ⟨before, job.dependency⟩ := by
        rw [found, ← status]
      apply Step.move row change
      intro started
      exact absurd started notStarted
    rw [← placeAll_place found nodup.1]
    apply Relation.ReflTransGen.head step
    apply induction nodup.2
    intro other member
    have different : other ≠ id := by
      intro same
      subst same
      exact nodup.1 member
    rw [place_job_other _ _ different]
    exact present other (List.mem_cons_of_mem id member)

variable {next : Board Id}

theorem Step.keeps_settled (step : Step board next)
    (found : board.job id = some job) (settled : job.status.isTerminal = true) :
    next.job id = some job := by
  cases step with
  | @submit fresh dependency absent =>
    have different : id ≠ fresh := by
      rintro rfl
      rw [absent] at found
      cases found
    rw [place_job_other _ _ different]
    exact found
  | @move moved before after dependency present change _ =>
    have different : id ≠ moved := by
      rintro rfl
      rw [present] at found
      cases found
      rw [TaskStatus.canBecome_active change] at settled
      cases settled
    rw [place_job_other _ _ different]
    exact found

theorem Steps.keeps_settled (steps : Steps board next)
    (found : board.job id = some job) (settled : job.status.isTerminal = true) :
    next.job id = some job := by
  induction steps with
  | refl => exact found
  | tail _ step induction => exact step.keeps_settled induction settled

theorem Steps.keeps_job (steps : Steps board next)
    (present : board.job id ≠ none) : next.job id ≠ none := by
  induction steps with
  | refl => exact present
  | @tail middle _ _ step induction =>
    have placed : ∀ other job, (middle.place other job).job id ≠ none := by
      intro other job
      by_cases same : id = other
      · rw [same, place_job_self]
        simp
      · rw [place_job_other _ _ same]
        exact induction
    cases step with
    | submit | move => exact placed _ _

/-- The log entries of one job. -/
def entriesOf (board : Board Id) (id : Id) : List TaskStatus :=
  (board.log.filter (fun record => record.1 = id)).map Prod.snd

/-- The entries the log must hold for a job: its terminal status once, and
nothing before it is settled. -/
def expectedEntries (board : Board Id) (id : Id) : List TaskStatus :=
  match board.job id with
  | some job => if job.status.isTerminal then [job.status] else []
  | none => []

/-- Every job has exactly the log entries its status calls for. -/
def Accounted (board : Board Id) : Prop :=
  ∀ id, board.entriesOf id = board.expectedEntries id

theorem accounted_empty : (empty : Board Id).Accounted := fun _ => rfl

theorem Accounted.place (accounted : board.Accounted) (job : Job Id)
    (unsettled : board.expectedEntries id = []) : (board.place id job).Accounted := by
  intro other
  by_cases same : other = id
  · subst same
    have none := accounted other
    rw [unsettled] at none
    unfold entriesOf at none
    simp only [entriesOf, expectedEntries, place_job_self]
    unfold place entry
    cases job.status.isTerminal <;> simp [none]
  · have kept := accounted other
    have reverse : id ≠ other := Ne.symm same
    unfold expectedEntries at kept ⊢
    rw [place_job_other _ _ same, ← kept]
    unfold entriesOf Board.place entry
    cases job.status.isTerminal <;> simp [reverse]

theorem Step.accounted (step : Step board next) (accounted : board.Accounted) : next.Accounted := by
  cases step with
  | submit absent => exact accounted.place _ (by simp [expectedEntries, absent])
  | move present change _ =>
    apply accounted.place
    simp [expectedEntries, present, TaskStatus.canBecome_active change]

theorem Steps.accounted (steps : Steps board next)
    (accounted : board.Accounted) : next.Accounted := by
  induction steps with
  | refl => exact accounted
  | tail _ step induction => exact step.accounted induction

/-- Statuses a job only has after it was started. -/
def wasStarted : TaskStatus → Bool
  | .running | .cancelling | .succeeded => true
  | .queued | .failed | .cancelled => false

/-- Every started job was started after its dependency succeeded. -/
def InOrder (board : Board Id) : Prop :=
  ∀ id job, board.job id = some job → wasStarted job.status = true → board.Ready job.dependency

omit [DecidableEq Id] in
theorem inOrder_empty : (empty : Board Id).InOrder := by
  intro id job found
  cases found

theorem Step.ready (step : Step board next)
    {dependency : Option Id} (ready : board.Ready dependency) :
    next.Ready dependency := by
  intro parent named
  obtain ⟨job, found, succeeded⟩ := ready parent named
  exact ⟨job, step.keeps_settled found (by rw [succeeded]; rfl), succeeded⟩

theorem Step.inOrder (step : Step board next) (inOrder : board.InOrder) : next.InOrder := by
  intro id job found started
  apply step.ready
  cases step with
  | @submit fresh dependency _ =>
    by_cases same : id = fresh
    · subst same
      rw [place_job_self] at found
      cases found
      simp [wasStarted] at started
    · rw [place_job_other _ _ same] at found
      exact inOrder id job found started
  | @move moved before after dependency present change ready =>
    by_cases same : id = moved
    · subst same
      rw [place_job_self] at found
      cases found
      by_cases now : after = .running
      · exact ready now
      · refine inOrder id ⟨before, dependency⟩ present ?_
        cases before <;> cases after <;>
          simp_all [TaskStatus.canBecome, wasStarted]
    · rw [place_job_other _ _ same] at found
      exact inOrder id job found started

theorem Steps.inOrder (steps : Steps board next) (inOrder : board.InOrder) : next.InOrder := by
  induction steps with
  | refl => exact inOrder
  | tail _ step induction => exact step.inOrder induction

/-- A dependency in one of these statuses never succeeds. -/
def blocks : TaskStatus → Bool
  | .failed | .cancelled => true
  | .queued | .running | .cancelling | .succeeded => false

/-- The only blocked dependencies of queued jobs are in `pending`. -/
def UnblockedExcept (board : Board Id) (pending : Id → Prop) : Prop :=
  ∀ id job parent parentJob, board.job id = some job → job.status = .queued →
    job.dependency = some parent → board.job parent = some parentJob →
    blocks parentJob.status = true → pending parent

/-- No queued job waits for a failed or cancelled one. -/
abbrev Unblocked (board : Board Id) : Prop :=
  board.UnblockedExcept (fun _ => False)

/-- Jobs queued afterwards were queued before, unchanged. -/
def QueuedWithin (next board : Board Id) : Prop :=
  ∀ id job, next.job id = some job → job.status = .queued → board.job id = some job

omit [DecidableEq Id] in
theorem QueuedWithin.refl (board : Board Id) : board.QueuedWithin board :=
  fun _ _ found _ => found

omit [DecidableEq Id] in
theorem QueuedWithin.trans {first second third : Board Id}
    (later : third.QueuedWithin second) (earlier : second.QueuedWithin first) :
    third.QueuedWithin first := by
  intro id job found queued
  exact earlier id job (later id job found queued) queued

theorem queuedWithin_place (board : Board Id) (id : Id) (leaves : job.status ≠ .queued) :
    (board.place id job).QueuedWithin board := by
  intro other found row queued
  have different : other ≠ id := by
    intro same
    subst same
    rw [place_job_self] at row
    cases row
    exact leaves queued
  rw [place_job_other _ _ different] at row
  exact row

variable {pending : Id → Prop}

/-- Placing a job that does not block anything and is not waiting for a
blocked dependency creates no new blocked job. -/
theorem UnblockedExcept.place (unblocked : board.UnblockedExcept pending)
    (harmless : blocks job.status = true → pending id)
    (served : job.status = .queued → ∀ parent parentJob,
      job.dependency = some parent → parent ≠ id →
      board.job parent = some parentJob →
      blocks parentJob.status = true → pending parent) :
    (board.place id job).UnblockedExcept pending := by
  intro child childJob parent parentJob childRow queued named parentRow blocked
  by_cases parentPlaced : parent = id
  · subst parentPlaced
    rw [place_job_self] at parentRow
    cases parentRow
    exact harmless blocked
  · rw [place_job_other _ _ parentPlaced] at parentRow
    by_cases childPlaced : child = id
    · subst childPlaced
      rw [place_job_self] at childRow
      cases childRow
      exact served queued parent parentJob named parentPlaced parentRow blocked
    · rw [place_job_other _ _ childPlaced] at childRow
      exact unblocked child childJob parent parentJob childRow queued named parentRow blocked

/-- A bulk change creates no blocked job if it reaches the queued dependents of
what it cancels, and requeues no job behind a blocked dependency. -/
theorem UnblockedExcept.placeAll (unblocked : board.UnblockedExcept pending)
    (reached : blocks after = true → ∀ child job parent,
      board.job child = some job → job.status = .queued →
      job.dependency = some parent → parent ∈ ids → child ∈ ids)
    (served : after = .queued → ∀ child ∈ ids, ∀ job parent parentJob,
      board.job child = some job → job.dependency = some parent →
      board.job parent = some parentJob → blocks parentJob.status = false) :
    (board.placeAll ids after).UnblockedExcept pending := by
  intro child childJob parent parentJob childRow queued named parentRow blocked
  simp only [Board.placeAll] at childRow parentRow
  by_cases childIn : child ∈ ids
  · rw [if_pos childIn] at childRow
    obtain ⟨job, row, changed⟩ := Option.map_eq_some_iff.mp childRow
    subst changed
    by_cases parentIn : parent ∈ ids
    · rw [if_pos parentIn] at parentRow
      obtain ⟨_, _, parentChanged⟩ := Option.map_eq_some_iff.mp parentRow
      subst parentChanged
      rw [show after = .queued from queued] at blocked
      cases blocked
    · rw [if_neg parentIn] at parentRow
      rw [served queued child childIn job parent parentJob row named parentRow] at blocked
      cases blocked
  · rw [if_neg childIn] at childRow
    by_cases parentIn : parent ∈ ids
    · rw [if_pos parentIn] at parentRow
      obtain ⟨_, _, parentChanged⟩ := Option.map_eq_some_iff.mp parentRow
      subst parentChanged
      exact absurd (reached blocked child childJob parent childRow queued named parentIn) childIn
    · rw [if_neg parentIn] at parentRow
      exact unblocked child childJob parent parentJob childRow queued named parentRow blocked

omit [DecidableEq Id] in
theorem UnblockedExcept.mono {wider : Id → Prop} (unblocked : board.UnblockedExcept pending)
    (widens : ∀ id, pending id → wider id) :
    board.UnblockedExcept wider := by
  intro child childJob parent parentJob childRow queued named parentRow blocked
  exact widens parent (unblocked child childJob parent parentJob childRow
    queued named parentRow blocked)

end Board

end MatrixSpooll.Queue
