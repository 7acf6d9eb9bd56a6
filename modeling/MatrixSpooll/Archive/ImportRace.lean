import Mathlib.Logic.Function.Basic
import MatrixSpooll.Library.Transition

/-!
# Concurrent imports of project archives

`import_project_archive` looks whether the target directory exists and moves
its staged tree there later, with nothing held in between.  `shutil.move` puts
the tree inside a directory that has come to exist meanwhile, and the rollback
removes whatever stands at the target.
-/

namespace MatrixSpooll.Archive

open Library

/-- A project directory; `nested` is what stands at `project` inside it, the
name every staged tree has. -/
structure ProjectDir (Tree : Type u) where
  tree : Tree
  nested : Option Tree
  deriving DecidableEq

inductive ConflictPolicy where
  | prompt
  | rename
  deriving DecidableEq, Repr

/-- Where one call of `import_project_archive` stands. -/
inductive ImportPhase where
  | staged
  | resolved (target : String)
  | installed (target : String)
  | failing (target : String)
  | returned (target : String)
  | refused
  | failed
  deriving DecidableEq, Repr

structure Imports (Tree : Type u) where
  dirs : String → Option (ProjectDir Tree)
  phase : Nat → ImportPhase

inductive ImportEvent where
  | resolveConflict (call : Nat) (policy : ConflictPolicy)
      (preferredName generatedName : String)
  | move (call : Nat) (raises : Bool)
  | syncAgentProfile (call : Nat) (raises : Bool)
  | rollback (call : Nat)
  deriving DecidableEq, Repr

namespace Imports

variable {Tree : Type u} (state : Imports Tree)

def goto (call : Nat) (phase : ImportPhase) : Imports Tree :=
  { state with phase := Function.update state.phase call phase }

def setDir (target : String) (dir : Option (ProjectDir Tree)) : Imports Tree :=
  { state with dirs := Function.update state.dirs target dir }

/-- `_resolve_conflict`; `generate_project_name` draws until the name is free. -/
def resolveConflict (call : Nat) (policy : ConflictPolicy)
    (preferredName generatedName : String) : Option (Imports Tree) :=
  if (state.dirs preferredName).isNone then
    some (state.goto call (.resolved preferredName))
  else
    match policy with
    | .prompt => some (state.goto call .refused)
    | .rename =>
      if (state.dirs generatedName).isNone then
        some (state.goto call (.resolved generatedName))
      else none

/-- `shutil.move` of the staged tree. -/
def move (tree : Tree) (call : Nat) (target : String) : Imports Tree :=
  match state.dirs target with
  | none => (state.setDir target (some ⟨tree, none⟩)).goto call
      (.installed target)
  | some ⟨other, none⟩ => (state.setDir target (some ⟨other, some tree⟩)).goto
      call (.installed target)
  | some ⟨_, some _⟩ => state.goto call (.failing target)

def next (staged : Nat → Tree) (state : Imports Tree) : ImportEvent → Option (Imports Tree)
  | .resolveConflict call policy preferredName generatedName =>
    if state.phase call = .staged then
      state.resolveConflict call policy preferredName generatedName
    else none
  | .move call raises =>
    match state.phase call with
    | .resolved target =>
      if raises then some (state.goto call (.failing target))
      else some (state.move (staged call) call target)
    | _ => none
  | .syncAgentProfile call raises =>
    match state.phase call with
    | .installed target =>
      if raises then some (state.goto call (.failing target))
      else some (state.goto call (.returned target))
    | _ => none
  | .rollback call =>
    match state.phase call with
    | .failing target => some ((state.setDir target none).goto call .failed)
    | _ => none

/-- Imports that start on any projects directory. -/
def system (staged : Nat → Tree) : TransitionSystem (Imports Tree) ImportEvent :=
  { initial := fun state => ∀ call, state.phase call = .staged
    step := fun state event after => state.next staged event = some after }

/-- The call has installed its tree at the target and not taken it back. -/
def Owns (call : Nat) (target : String) : Prop :=
  state.phase call = .installed target ∨ state.phase call = .returned target

/-- Nobody else has come to the target of the call when it moves its tree or
rolls back. -/
def Alone : ImportEvent → Prop
  | .move call _ => ∀ target, state.phase call = .resolved target →
      state.dirs target = none
  | .rollback call => ∀ target other, state.phase call = .failing target →
      other ≠ call → ¬ state.Owns other target
  | _ => True

/-- Every import that holds a directory finds exactly its own tree there, and
no other import holds the directory. -/
structure Isolated (staged : Nat → Tree) (state : Imports Tree) : Prop where
  own : ∀ call target, state.Owns call target → state.dirs target = some ⟨staged call, none⟩
  single : ∀ call other target, state.Owns call target → state.Owns other target → call = other

section Steps

variable {staged : Nat → Tree} {state : Imports Tree} {call other : Nat}
  {target : String} {phase : ImportPhase}

theorem owns_goto : (state.goto call phase).Owns other target ↔
    if other = call then phase = .installed target ∨ phase = .returned target
    else state.Owns other target := by
  by_cases same : other = call <;> simp [Owns, goto, same]

theorem owns_setDir {place : String} {dir : Option (ProjectDir Tree)} :
    (state.setDir target dir).Owns call place ↔ state.Owns call place :=
  Iff.rfl

variable (isolated : state.Isolated staged)
include isolated

/-- A call that ends up holding what it held before, or nothing. -/
theorem Isolated.goto (held : ∀ target, phase = .installed target ∨ phase = .returned target →
      state.Owns call target) : (state.goto call phase).Isolated staged := by
  have before : ∀ other target, (state.goto call phase).Owns other target →
      state.Owns other target := by
    intro other target owns
    rw [owns_goto] at owns
    split at owns
    case isTrue same => exact same ▸ held target owns
    case isFalse => exact owns
  refine { own := ?_, single := ?_ }
  · intro other target owns
    exact isolated.own other target (before other target owns)
  · intro one other target first second
    exact isolated.single one other target (before one target first) (before other target second)

theorem Isolated.install (free : state.dirs target = none) :
    ((state.setDir target (some ⟨staged call, none⟩)).goto call
      (.installed target)).Isolated staged := by
  have others : ∀ other place, other ≠ call → state.Owns other place → place ≠ target := by
    intro other place _ owns same
    rw [same] at owns
    have taken := isolated.own other target owns
    rw [free] at taken
    cases taken
  refine { own := ?_, single := ?_ }
  · intro other place owns
    rw [owns_goto] at owns
    split at owns
    case isTrue same =>
      rcases owns with installed | returned
      · cases installed
        simp [Imports.goto, setDir, same]
      · cases returned
    case isFalse different =>
      have elsewhere := others other place different owns
      simp [Imports.goto, setDir, elsewhere, isolated.own other place owns]
  · intro one other place first second
    rw [owns_goto, owns_setDir] at first second
    have apart := fun third => others third place
    split at first <;> split at second
    · simp_all
    · simp_all
    · simp_all
    · exact isolated.single one other place first second

theorem Isolated.rollback (alone : ∀ other, other ≠ call → ¬ state.Owns other target) :
    ((state.setDir target none).goto call .failed).Isolated staged := by
  have held : ∀ other place, ((state.setDir target none).goto call
      .failed).Owns other place → state.Owns other place ∧ place ≠ target := by
    intro other place owns
    rw [owns_goto] at owns
    split at owns
    case isTrue => simp at owns
    case isFalse different =>
      refine ⟨owns, ?_⟩
      intro same
      exact alone other different (same ▸ owns)
  refine { own := ?_, single := ?_ }
  · intro other place owns
    obtain ⟨before, elsewhere⟩ := held other place owns
    simp [Imports.goto, setDir, elsewhere, isolated.own other place before]
  · intro one other place first second
    exact isolated.single one other place (held one place first).1 (held other place second).1

theorem Isolated.next {event : ImportEvent} {after : Imports Tree}
    (alone : state.Alone event) (step : state.next staged event = some after) :
    after.Isolated staged := by
  cases event with
  | resolveConflict call policy preferredName generatedName =>
    simp only [Imports.next, resolveConflict] at step
    grind [Isolated.goto]
  | move call raises =>
    simp only [Imports.next] at step
    split at step
    case h_1 target position =>
      have free := alone target position
      split at step <;> cases step
      · exact isolated.goto (by simp)
      · simp only [move, free]
        exact isolated.install free
    case h_2 => cases step
  | syncAgentProfile call raises =>
    simp only [Imports.next] at step
    split at step
    case h_1 target position =>
      split at step <;> cases step
      · exact isolated.goto (by simp)
      · apply isolated.goto
        intro place owns
        simp_all [Owns]
    case h_2 => cases step
  | rollback call =>
    simp only [Imports.next] at step
    split at step
    case h_1 target position =>
      cases step
      exact isolated.rollback (fun other => alone target other position)
    case h_2 => cases step

end Steps

/-- As long as every import is alone at its target when it moves its tree or
rolls back, an import that has returned finds its own tree at a directory of
its own, whatever the others do. -/
theorem imports_isolated (staged : Nat → Tree) {state : Imports Tree}
    (reachable : ((system staged).restrict Alone).Reachable state) :
    ∀ call target, state.phase call = .returned target →
      state.dirs target = some ⟨staged call, none⟩ ∧
      ∀ other, other ≠ call → ¬ state.Owns other target := by
  have invariant : ((system staged).restrict Alone).Invariant (Isolated staged) := by
    refine { initially := ?_, preserved := ?_ }
    · intro state initially
      have nobody : ∀ call target, ¬ state.Owns call target := by
        intro call target
        simp [Owns, show state.phase call = .staged from initially call]
      exact
        { own := fun call target owns => absurd owns (nobody call target)
          single := fun call _ target owns => absurd owns (nobody call target) }
    · intro state event after isolated step
      exact isolated.next step.1 step.2
  have isolated := invariant.reachable reachable
  intro call target returned
  refine ⟨isolated.own call target (.inr returned), ?_⟩
  intro other different owns
  exact different (isolated.single other call target owns (.inr returned))

/-- No project yet, and every import has staged its tree. -/
def fresh : Imports Nat :=
  { dirs := fun _ => none
    phase := fun _ => .staged }

/-- Three imports of one name: the second takes another name, the third is
refused. -/
theorem renamed_import_installs : ∃ state, ((system id).restrict Alone).Reachable state ∧
      state.phase 0 = .returned "demo" ∧ state.phase 1 = .returned "demo-1" ∧
      state.phase 2 = .refused ∧ state.dirs "demo" = some ⟨0, none⟩ ∧
      state.dirs "demo-1" = some ⟨1, none⟩ ∧ ∀ other, other ≠ 0 → ¬ state.Owns other "demo" := by
  have reachable : ((system id).restrict Alone).Reachable _ :=
    ⟨fresh, [.resolveConflict 0 .prompt "demo" "", .move 0 false,
        .resolveConflict 1 .rename "demo" "demo-1", .resolveConflict 2 .prompt "demo" "",
        .syncAgentProfile 0 false, .move 1 false, .syncAgentProfile 1 false], fun _ => rfl,
      .cons ⟨trivial, rfl⟩ (.cons ⟨fun _ position => by cases position; rfl, rfl⟩
        (.cons ⟨trivial, rfl⟩ (.cons ⟨trivial, rfl⟩ (.cons ⟨trivial, rfl⟩
        (.cons ⟨fun _ position => by cases position; rfl, rfl⟩
        (.cons ⟨trivial, rfl⟩ (.nil _)))))))⟩
  have isolated := imports_isolated id reachable
  obtain ⟨first, alone⟩ := isolated 0 "demo" rfl
  exact ⟨_, reachable, rfl, rfl, rfl, first, (isolated 1 "demo-1" rfl).1, alone⟩

/-- Both imports find the name free; the second puts its tree inside the
directory the first has returned. -/
theorem second_import_nests : ∃ state, (system id).Reachable state ∧
      state.phase 0 = .returned "demo" ∧ state.phase 1 = .returned "demo" ∧
      state.dirs "demo" = some ⟨0, some 1⟩ := by
  have reachable : (system id).Reachable _ :=
    ⟨fresh, [.resolveConflict 0 .prompt "demo" "",
      .resolveConflict 1 .prompt "demo" "", .move 0 false,
      .syncAgentProfile 0 false, .move 1 false, .syncAgentProfile 1 false],
      fun _ => rfl, .of_foldlM (fun _ _ _ => id) rfl⟩
  exact ⟨_, reachable, rfl, rfl, rfl⟩

end Imports

end MatrixSpooll.Archive
