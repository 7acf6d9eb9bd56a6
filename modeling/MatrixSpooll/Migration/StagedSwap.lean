import MatrixSpooll.Library.Transition

/-!
# The directory swap of `migrate_v5_to_v6`

The migration rewrites a copy of the project and swaps it in with two renames.
A process that is killed in between leaves the project under its rollback name,
where the next start-up finds it.  One that is killed while it removes the
rollback tree leaves that tree beside the migrated project, and nothing but the
presence of the project keeps the start-up from taking it for the project.
-/

namespace MatrixSpooll.Migration

open Library

/-- A project tree: complete at schema 5, complete at schema 6, or with files
missing. -/
inductive ProjectTree where
  | original
  | migrated
  | damaged
  deriving DecidableEq, Repr

/-- `_migrate_staged_tree` of a copy of the tree. -/
def ProjectTree.migrate : ProjectTree → ProjectTree
  | .original | .migrated => .migrated
  | .damaged => .damaged

/-- What the process does: nothing, work on the staging tree, stand between the
two renames, or remove the rollback tree. -/
inductive SwapPhase where
  | idle
  | staging
  | swapping (staged : ProjectTree)
  | removing
  deriving DecidableEq, Repr

/-- The directories of one project.  `rollbacks` are the trees under rollback
names, the newest first; a staging tree is never read back and is left out.
`undisturbed` says that no process was killed since the last start-up. -/
structure SwapState where
  project : Option ProjectTree
  rollbacks : List ProjectTree
  phase : SwapPhase
  deleted : Bool
  undisturbed : Bool
  deriving DecidableEq, Repr

inductive SwapEvent where
  | beginAttempt
  | stagingRaises
  | firstRename
  | secondRename (raises : Bool)
  | removeFile
  | removalEnds (left : Bool)
  | kill
  | startUp
  | cleanupCompletedSwapDirs (kept : Nat)
  | deleteProject
  deriving DecidableEq, Repr

namespace SwapState

/-- `reclaim_interrupted_swaps`: only when the project is missing. -/
def reclaimInterruptedSwaps (state : SwapState) : SwapState :=
  match state.project, state.rollbacks with
  | none, newest :: older => { state with project := some newest, rollbacks := older }
  | _, _ => state

def next (state : SwapState) : SwapEvent → Option SwapState
  | .beginAttempt =>
    match state.phase, state.project with
    | .idle, some .original | .idle, some .damaged => some { state with phase := .staging }
    | _, _ => none
  -- `finally` removes the staging tree
  | .stagingRaises =>
    if state.phase = .staging then some { state with phase := .idle }
    else none
  | .firstRename =>
    match state.phase, state.project with
    | .staging, some tree => some
        { state with
          project := none
          rollbacks := tree :: state.rollbacks
          phase := .swapping tree.migrate }
    | _, _ => none
  | .secondRename raises =>
    match state.phase with
    | .swapping staged =>
      if raises then
        some { state.reclaimInterruptedSwaps with phase := .idle }
      else some { state with project := some staged, phase := .removing }
    | _ => none
  | .removeFile =>
    match state.phase, state.rollbacks with
    | .removing, _ :: older => some { state with rollbacks := .damaged :: older }
    | _, _ => none
  -- `ignore_errors` may leave something of the tree
  | .removalEnds left =>
    match state.phase, state.rollbacks with
    | .removing, newest :: older => some
        { state with
          rollbacks := if left then newest :: older else older
          phase := .idle }
    | _, _ => none
  | .kill => some { state with phase := .idle, undisturbed := false }
  | .startUp =>
    if state.phase = .idle then
      some { state.reclaimInterruptedSwaps with undisturbed := true }
    else none
  | .cleanupCompletedSwapDirs kept =>
    if state.phase = .idle ∧ state.project.isSome then
      some { state with rollbacks := state.rollbacks.take kept }
    else none
  | .deleteProject =>
    if state.phase = .idle ∧ state.project.isSome then
      some { state with project := none, deleted := true }
    else none

/-- A project at schema 5 without leftovers. -/
def start : SwapState :=
  { project := some .original
    rollbacks := []
    phase := .idle
    deleted := false
    undisturbed := true }

def system : TransitionSystem SwapState SwapEvent := .ofFunction start next

/-- The user deletes the project only when no rollback tree is left of it. -/
def NoLeftover (state : SwapState) : SwapEvent → Prop
  | .deleteProject => state.rollbacks = []
  | _ => True

/-- The states of runs in which no leftover is orphaned. -/
inductive Recoverable : SwapState → Prop where
  | original (phase : SwapPhase) (undisturbed : Bool) :
      phase = .idle ∨ phase = .staging →
      Recoverable ⟨some .original, [], phase, false, undisturbed⟩
  | between (phase : SwapPhase) (undisturbed : Bool) :
      phase = .swapping .migrated ∨ phase = .idle ∧ undisturbed = false →
      Recoverable ⟨none, [.original], phase, false, undisturbed⟩
  | migrated (rollbacks : List ProjectTree) (phase : SwapPhase)
      (undisturbed : Bool) :
      phase = .idle ∨ phase = .removing →
      Recoverable ⟨some .migrated, rollbacks, phase, false, undisturbed⟩
  | deleted (undisturbed : Bool) : Recoverable ⟨none, [], .idle, true, undisturbed⟩

theorem Recoverable.next {state after : SwapState} {event : SwapEvent}
    (recoverable : state.Recoverable) (condition : state.NoLeftover event)
    (step : state.next event = some after) : after.Recoverable := by
  cases recoverable with
  | original phase undisturbed isPhase =>
    rcases isPhase with rfl | rfl <;> cases event <;>
      simp [SwapState.next, reclaimInterruptedSwaps, ProjectTree.migrate] at step <;> subst step
    all_goals constructor
    all_goals simp
  | between phase undisturbed isPhase =>
    rcases isPhase with rfl | ⟨rfl, rfl⟩ <;> cases event <;>
      simp [SwapState.next, reclaimInterruptedSwaps] at step
    case inl.secondRename raises => cases raises <;> cases step <;> constructor <;> simp
    all_goals subst step
    all_goals constructor
    all_goals simp
  | migrated rollbacks phase undisturbed isPhase =>
    rcases isPhase with rfl | rfl <;> cases event <;>
      simp [SwapState.next, reclaimInterruptedSwaps] at step
    all_goals grind [Recoverable, NoLeftover]
  | deleted undisturbed =>
    cases event <;>
      simp [SwapState.next, reclaimInterruptedSwaps] at step <;> subst step
    all_goals constructor

/-- In every run in which no project is deleted while a rollback tree of it is
left, the project is complete after every start-up unless it was deleted, and a
deleted project stays away. -/
theorem interrupted_swap_recovers {state : SwapState}
    (reachable : (system.restrict NoLeftover).Reachable state) :
    (state.deleted = true → state.project = none) ∧
    (state.deleted = false → state.phase = .idle → state.undisturbed = true →
      state.project = some .original ∨ state.project = some .migrated) := by
  have invariant : (system.restrict NoLeftover).Invariant Recoverable := by
    refine { initially := ?_, preserved := ?_ }
    · intro state initially
      cases initially
      exact .original .idle true (.inl rfl)
    · intro state event after recoverable step
      exact recoverable.next step.1 step.2
  cases invariant.reachable reachable with
  | original => simp
  | between phase undisturbed isPhase => rcases isPhase with rfl | ⟨rfl, rfl⟩ <;> simp
  | migrated | deleted => simp

/-- Killed between the renames, and found again; later killed while the
rollback tree is removed, cleaned up and deleted. -/
theorem killed_swap_reclaimed : ∃ state later, (system.restrict NoLeftover).Reachable state ∧
      (state.project = some .original ∨ state.project = some .migrated) ∧
      (system.restrict NoLeftover).Reachable later ∧ later.deleted = true ∧
      later.project = none := by
  have reclaimed : (system.restrict NoLeftover).Reachable _ :=
    ⟨start, [.beginAttempt, .firstRename, .kill, .startUp], rfl,
      .cons ⟨trivial, rfl⟩ (.cons ⟨trivial, rfl⟩ (.cons ⟨trivial, rfl⟩
        (.cons ⟨trivial, rfl⟩ (.nil _))))⟩
  have deleted : (system.restrict NoLeftover).Reachable _ :=
    ⟨start, [.beginAttempt, .firstRename, .secondRename false, .removeFile, .kill, .startUp,
        .cleanupCompletedSwapDirs 0, .deleteProject, .startUp], rfl,
      .cons ⟨trivial, rfl⟩ (.cons ⟨trivial, rfl⟩ (.cons ⟨trivial, rfl⟩ (.cons ⟨trivial, rfl⟩
        (.cons ⟨trivial, rfl⟩ (.cons ⟨trivial, rfl⟩ (.cons ⟨trivial, rfl⟩
        (.cons ⟨rfl, rfl⟩ (.cons ⟨trivial, rfl⟩ (.nil _)))))))))⟩
  exact ⟨_, _, reclaimed, (interrupted_swap_recovers reclaimed).2 rfl rfl rfl, deleted, rfl,
    (interrupted_swap_recovers deleted).1 rfl⟩

/-- Killed while the rollback tree is removed, the project then deleted: the
next start-up brings a damaged copy back. -/
theorem deleted_project_reappears : ∃ state, system.Reachable state ∧ state.deleted = true ∧
      state.phase = .idle ∧ state.undisturbed = true ∧
      state.project = some .damaged :=
  ⟨_, ⟨start, [.beginAttempt, .firstRename, .secondRename false, .removeFile,
      .kill, .startUp, .deleteProject, .startUp], rfl,
    .of_foldlM (fun _ _ _ => id) rfl⟩, rfl, rfl, rfl, rfl⟩

end SwapState

end MatrixSpooll.Migration
