/-!
# Loop rules for `List.foldl`

A `for` loop over a list that was computed before the loop is a left fold.
The two rules below are the ones the loops of the development are proved by:
every turn is related to the turn before, or an assertion about the remaining
items is carried from turn to turn.
-/

namespace MatrixSpooll.Library

variable {State : Type u} {Item : Type v} {turn : State → Item → State}

theorem foldl_relates (relation : State → State → Prop) (refl : ∀ state, relation state state)
    (trans : ∀ {first second third}, relation first second →
      relation second third → relation first third)
    (related : ∀ state item, relation state (turn state item)) (items : List Item) (start : State) :
    relation start (items.foldl turn start) := by
  induction items generalizing start with
  | nil => exact refl start
  | cons item items induction =>
    exact trans (related start item) (induction (turn start item))

theorem foldl_keeps {View : Type w} (view : State → View) {items : List Item}
    (kept : ∀ state, ∀ item ∈ items, view (turn state item) = view state)
    (start : State) : view (items.foldl turn start) = view start := by
  induction items generalizing start with
  | nil => rfl
  | cons item items induction =>
    rw [List.foldl_cons, induction (fun state later member =>
      kept state later (List.mem_cons_of_mem _ member))]
    exact kept start item List.mem_cons_self

/-- `assertion rest state` holds before the turns for `rest` are taken. -/
theorem foldl_loop (assertion : List Item → State → Prop)
    (advance : ∀ item rest state, assertion (item :: rest) state → assertion rest (turn state item))
    {items : List Item} {start : State} (entry : assertion items start) :
    assertion [] (items.foldl turn start) := by
  induction items generalizing start with
  | nil => exact entry
  | cons item items induction => exact induction (advance item items start entry)

end MatrixSpooll.Library
