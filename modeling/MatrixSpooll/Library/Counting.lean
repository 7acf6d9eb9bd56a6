import Mathlib.Algebra.Order.BigOperators.Group.Finset
import MatrixSpooll.Library.Dict

/-!
# Counting list entries

Bounds on how many entries of a list meet a test: one entry is replaced, the
test is split in two, the entries are named without repetition, or every entry
belongs to one of finitely many groups.
-/

namespace MatrixSpooll.Library

open List

variable {Item : Type u} {items : List Item} {index : Nat} {old : Item}

theorem countP_set_eq (found : items[index]? = some old) (new : Item) (test : Item → Bool) :
    (items.set index new).countP test + (if test old then 1 else 0) =
      items.countP test + (if test new then 1 else 0) := by
  obtain ⟨inside, isOld⟩ := List.getElem?_eq_some_iff.mp found
  have counted := boole_getElem_le_countP (p := test) inside
  rw [countP_set inside, ← isOld]
  omega

variable {test : Item → Bool}

theorem countP_set_le (found : items[index]? = some old) {new : Item}
    (falls : test new = true → test old = true) :
    (items.set index new).countP test ≤ items.countP test := by
  have count := countP_set_eq found new test
  cases newTest : test new with
  | false =>
    rw [newTest] at count
    simp only [Bool.false_eq_true, if_false] at count
    omega
  | true =>
    rw [newTest, falls newTest] at count
    omega

theorem countP_le_add {first second : Item → Bool} (either : ∀ item ∈ items, test item = true →
      first item = true ∨ second item = true) :
    items.countP test ≤ items.countP first + items.countP second := by
  induction items with
  | nil => simp
  | cons head tail induction =>
    have tailLe := induction (fun item member => either item (mem_cons_of_mem head member))
    have headEither := either head mem_cons_self
    rw [countP_cons, countP_cons, countP_cons]
    cases headTest : test head with
    | false =>
      simp only [Bool.false_eq_true, if_false]
      omega
    | true =>
      rcases headEither headTest with isFirst | isSecond
      · rw [isFirst]
        simp only [if_true]
        omega
      · rw [isSecond]
        simp only [if_true]
        omega

/-- Entries with pairwise different names that all occur among the names of
others are at most as many. -/
theorem countP_le_of_names {Other : Type v} {Name : Type w}
    {others : List Other} (name : Item → Name) (otherName : Other → Name)
    {otherTest : Other → Bool} (nodup : (items.map name).Nodup)
    (named : ∀ item ∈ items, test item = true →
      ∃ other ∈ others, otherTest other = true ∧ otherName other = name item) :
    items.countP test ≤ others.countP otherTest := by
  have selected : ((items.filter test).map name).Nodup := nodup.sublist (filter_sublist.map name)
  have within : (items.filter test).map name ⊆ (others.filter otherTest).map otherName := by
    intro wanted member
    obtain ⟨item, itemMember, itemName⟩ := mem_map.mp member
    obtain ⟨listed, holds⟩ := mem_filter.mp itemMember
    obtain ⟨other, otherMember, otherHolds, sameName⟩ := named item listed holds
    rw [← itemName, ← sameName]
    exact mem_map.mpr ⟨other, mem_filter.mpr ⟨otherMember, otherHolds⟩, rfl⟩
  have bound := (Nodup.subperm selected within).length_le
  rw [length_map, length_map] at bound
  rw [countP_eq_length_filter, countP_eq_length_filter]
  exact bound

theorem countP_le_sum_groups {Index : Type v} (groups : Finset Index)
    (member : Index → Item → Bool) (covered : ∀ item ∈ items, test item = true →
      ∃ index ∈ groups, member index item = true) :
    items.countP test ≤ ∑ index ∈ groups, items.countP (member index) := by
  induction items with
  | nil => simp
  | cons head tail induction =>
    have tailLe := induction (fun item listed => covered item (mem_cons_of_mem head listed))
    simp only [countP_cons, Finset.sum_add_distrib]
    cases headTest : test head with
    | false =>
      simp only [Bool.false_eq_true, if_false]
      omega
    | true =>
      obtain ⟨index, listed, holds⟩ := covered head mem_cons_self headTest
      have one : 1 ≤ ∑ index ∈ groups, (if member index head = true then 1 else 0) := by
        have single := Finset.single_le_sum
          (f := fun index => if member index head = true then 1 else 0)
          (fun _ _ => Nat.zero_le _) listed
        simpa [holds] using single
      simp only [if_true]
      omega

theorem countP_put_le {Key : Type u} {Value : Type v} [DecidableEq Key]
    (dict : Dict Key Value) (key : Key) (value : Value)
    (test : Key × Value → Bool) : (dict.put key value).rows.countP test ≤
      dict.rows.countP test + (if test (key, value) then 1 else 0) := by
  rw [Dict.rows_put, countP_append, countP_cons]
  cases found : dict.get? key with
  | none =>
    obtain ⟨front, back⟩ := Dict.before_after_of_missing found
    rw [front, back]
    simp
  | some old =>
    have count := congrArg (countP test) (Dict.rows_eq_before_after found)
    rw [countP_append, countP_cons] at count
    omega

end MatrixSpooll.Library
