import Mathlib.Data.List.Forall2

/-!
# Checked computations

A function that raises is a computation in `Except`.  The rules below take a
successful computation apart, one check after the other.
-/

namespace MatrixSpooll.Library

variable {Failure : Type u} {First Second : Type v}

/-- Raise `failure` unless `condition` holds. -/
def require (condition : Prop) [Decidable condition] (failure : Failure) : Except Failure Unit :=
  if condition then .ok () else .error failure

theorem require_eq_ok {condition : Prop} [Decidable condition] {failure : Failure} {value : Unit} :
    require condition failure = .ok value ↔ condition := by
  unfold require
  split <;> simp [*]

theorem bind_eq_ok {first : Except Failure First}
    {rest : First → Except Failure Second} {result : Second} : (first >>= rest) = .ok result ↔
      ∃ value, first = .ok value ∧ rest value = .ok result := by
  cases first with
  | error failure | ok value => simp [bind, Except.bind]

theorem mapM_eq_ok_iff {compute : First → Except Failure Second}
    {items : List First} {results : List Second} :
    items.mapM compute = .ok results ↔
      List.Forall₂ (fun item result => compute item = .ok result) items
        results := by
  induction items generalizing results with
  | nil =>
    constructor
    · intro computed
      cases computed
      exact .nil
    · intro related
      cases related
      rfl
  | cons item items induction =>
    rw [List.mapM_cons]
    constructor
    · intro computed
      obtain ⟨first, isFirst, rest⟩ := bind_eq_ok.mp computed
      obtain ⟨others, isOthers, built⟩ := bind_eq_ok.mp rest
      cases built
      exact .cons isFirst (induction.mp isOthers)
    · intro related
      cases related with
      | cons isFirst others =>
        rw [isFirst, induction.mpr others]
        rfl

theorem mapM_eq_ok_mem {compute : First → Except Failure Second}
    {items : List First} {results : List Second}
    (computed : items.mapM compute = .ok results) {result : Second} (member : result ∈ results) :
    ∃ item ∈ items, compute item = .ok result := by
  have related := mapM_eq_ok_iff.mp computed
  clear computed
  induction related with
  | nil => cases member
  | @cons item _ items _ isFirst _ induction =>
    rcases List.mem_cons.mp member with isHead | later
    · exact ⟨item, List.mem_cons_self, isHead ▸ isFirst⟩
    · obtain ⟨other, otherMember, holds⟩ := induction later
      exact ⟨other, List.mem_cons_of_mem item otherMember, holds⟩

theorem exists_ok_of_isOk {computed : Except Failure First}
    (succeeds : computed.isOk = true) : ∃ value, computed = .ok value := by
  cases computed with
  | error failure => cases succeeds
  | ok value => exact ⟨value, rfl⟩

theorem toOption_eq_some {computed : Except Failure First}
    {result other : First} (isResult : computed.toOption = some result)
    (isOther : computed = .ok other) : other = result := by
  subst isOther
  exact Option.some.inj isResult

theorem exists_error_of_not_isOk {computed : Except Failure First}
    (fails : computed.isOk = false) : ∃ failure, computed = .error failure := by
  cases computed with
  | error failure => exact ⟨failure, rfl⟩
  | ok value => cases fails

end MatrixSpooll.Library
