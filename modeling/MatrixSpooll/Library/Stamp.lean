import MatrixSpooll.Library.Transition

/-!
# Stamped values

A value with a stamp that never falls and that rises whenever the value
changes.  Who finds the stamp as it was knows that the value is as it was.
-/

namespace MatrixSpooll.Library

variable {State : Type u} {Label : Type v} {Value : Type w}

/-- The stamp has not fallen, and the value is the same if the stamp is. -/
structure Stamped (stamp : State → Nat) (value : State → Value) (before after : State) : Prop where
  rises : stamp before ≤ stamp after
  same : stamp before = stamp after → value before = value after

namespace Stamped

variable {stamp : State → Nat} {value : State → Value}

theorem refl (state : State) : Stamped stamp value state state :=
  { rises := Nat.le_refl _
    same := fun _ => rfl }

theorem of_eq {before after : State} (sameStamp : stamp after = stamp before)
    (sameValue : value after = value before) :
    Stamped stamp value before after :=
  { rises := Nat.le_of_eq sameStamp.symm
    same := fun _ => sameValue.symm }

theorem of_lt {before after : State} (less : stamp before < stamp after) :
    Stamped stamp value before after :=
  { rises := Nat.le_of_lt less
    same := fun equal => absurd equal (Nat.ne_of_lt less) }

theorem trans {first second third : State} (before : Stamped stamp value first second)
    (after : Stamped stamp value second third) :
    Stamped stamp value first third := by
  refine ⟨Nat.le_trans before.rises after.rises, ?_⟩
  intro equal
  have rises := before.rises
  have risesAgain := after.rises
  have middle : stamp first = stamp second := by omega
  rw [before.same middle]
  exact after.same (middle ▸ equal)

theorem of_run {system : TransitionSystem State Label} {holds : State → Prop}
    (preserved : ∀ state label next, holds state → system.step state label next → holds next)
    (steps : ∀ state label next, holds state →
      system.step state label next → Stamped stamp value state next)
    {start final : State} {labels : List Label}
    (run : system.Run start labels final) (initially : holds start) :
    Stamped stamp value start final := by
  induction run with
  | nil state => exact refl state
  | cons step _ induction =>
    exact (steps _ _ _ initially step).trans (induction (preserved _ _ _ initially step))

end Stamped

end MatrixSpooll.Library
