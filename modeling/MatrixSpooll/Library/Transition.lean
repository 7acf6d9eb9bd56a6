/-!
# Labelled transition systems

Every concurrent part of the development is a system of this shape: a set of
initial states and a labelled step relation.  `Run` records the labels of one
finite execution; `restrict` keeps only the steps that meet a condition on the
state before the step, so that a statement about the runs of a restricted
system is a statement about all runs whose steps meet that condition.
-/

namespace MatrixSpooll.Library

/-- Initial states and labelled steps. -/
structure TransitionSystem (State : Type u) (Label : Type v) where
  initial : State → Prop
  step : State → Label → State → Prop

namespace TransitionSystem

variable {State : Type u} {Label : Type v}

/-- A finite execution together with its labels. -/
inductive Run (system : TransitionSystem State Label) : State → List Label → State → Prop where
  | nil (state : State) : Run system state [] state
  | cons {state next final : State} {label : Label} {labels : List Label} :
      system.step state label next →
      Run system next labels final →
      Run system state (label :: labels) final

def Reachable (system : TransitionSystem State Label) (state : State) : Prop :=
  ∃ start labels, system.initial start ∧ system.Run start labels state

/-- The deterministic system of a partial next-state function. -/
def ofFunction (start : State) (next : State → Label → Option State) :
    TransitionSystem State Label :=
  { initial := fun state => state = start
    step := fun state label target => next state label = some target }

/-- Only the steps that meet `condition` in the state they start from. -/
def restrict (system : TransitionSystem State Label)
    (condition : State → Label → Prop) : TransitionSystem State Label :=
  { initial := system.initial
    step := fun state label next => condition state label ∧ system.step state label next }

/-- An invariant that holds initially and is kept by every step. -/
structure Invariant (system : TransitionSystem State Label) (holds : State → Prop) : Prop where
  initially : ∀ state, system.initial state → holds state
  preserved : ∀ state label next, holds state → system.step state label next → holds next

variable {system : TransitionSystem State Label}

theorem Run.preserves {holds : State → Prop} (preserved : ∀ state label next,
      holds state → system.step state label next → holds next)
    {start final : State} {labels : List Label} (run : system.Run start labels final) :
    holds start → holds final := by
  induction run with
  | nil => exact id
  | cons step _ induction =>
    intro before
    exact induction (preserved _ _ _ before step)

/-- Steps that a next-state function computes one after the other. -/
theorem Run.of_foldlM {next : State → Label → Option State}
    (steps : ∀ state label target, next state label = some target →
      system.step state label target) {start final : State}
    {labels : List Label} (result : labels.foldlM next start = some final) :
    system.Run start labels final := by
  induction labels generalizing start with
  | nil =>
    cases result
    exact .nil _
  | cons label labels induction =>
    rw [List.foldlM_cons] at result
    obtain ⟨middle, first, rest⟩ := Option.bind_eq_some_iff.mp result
    exact .cons (steps start label middle first) (induction rest)

theorem Invariant.reachable {holds : State → Prop}
    (invariant : system.Invariant holds) {state : State}
    (reachable : system.Reachable state) : holds state := by
  obtain ⟨start, labels, initially, run⟩ := reachable
  exact run.preserves invariant.preserved (invariant.initially start initially)

end TransitionSystem

end MatrixSpooll.Library
