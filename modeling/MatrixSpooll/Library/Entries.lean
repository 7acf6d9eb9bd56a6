import Mathlib

/-!
# Entries of a list

Replacing one entry, looking up by key, and lists in which exactly one position
meets a test.
-/

namespace MatrixSpooll.Library

open List

variable {Item : Type u} {items : List Item} {index : Nat} {old : Item}

theorem getElem?_set_found (found : items[index]? = some old) (new : Item) (other : Nat) :
    (items.set index new)[other]? = if other = index then some new else items[other]? := by
  have inside : index < items.length := (List.getElem?_eq_some_iff.mp found).1
  by_cases same : other = index
  · subst same
    simp [inside]
  · have different : index ≠ other := Ne.symm same
    simp [different, same]

theorem getElem?_snoc (items : List Item) (item : Item) (index : Nat) : (items ++ [item])[index]? =
      if index = items.length then some item else items[index]? := by
  rw [getElem?_append, getElem?_singleton]
  split
  · rw [if_neg (by omega)]
  · rename_i outside
    rw [getElem?_eq_none (not_lt.mp outside)]
    simp only [Nat.sub_eq_zero_iff_le]
    congr 1
    simp only [eq_iff_iff]
    omega

theorem index_unique {Key : Type v} {key : Item → Key}
    (distinct : (items.map key).Nodup) {first second : Nat}
    {firstItem secondItem : Item} (isFirst : items[first]? = some firstItem)
    (isSecond : items[second]? = some secondItem)
    (same : key firstItem = key secondItem) : first = second := by
  have inside : first < (items.map key).length := by
    rw [length_map]
    exact (List.getElem?_eq_some_iff.mp isFirst).1
  apply (getElem?_inj inside distinct).mp
  rw [getElem?_map, getElem?_map, isFirst, isSecond, Option.map_some, Option.map_some, same]

theorem sum_map_set (found : items[index]? = some old) (new : Item) (weight : Item → Nat) :
    ((items.set index new).map weight).sum + weight old = (items.map weight).sum + weight new := by
  induction items generalizing index with
  | nil => cases found
  | cons head tail induction =>
    cases index with
    | zero =>
      rw [getElem?_cons_zero] at found
      cases found
      rw [set_cons_zero, map_cons, map_cons, sum_cons, sum_cons]
      omega
    | succ index =>
      rw [getElem?_cons_succ] at found
      have tailEq := induction found
      rw [set_cons_succ, map_cons, map_cons, sum_cons, sum_cons]
      omega

variable {test : Item → Bool}

theorem filter_eq_singleton {item : Item} (found : items[index]? = some item)
    (holds : test item = true) (unique : ∀ (other : Nat) entry, items[other]? = some entry →
      test entry = true → other = index) : items.filter test = [item] := by
  induction items generalizing index with
  | nil => cases found
  | cons head tail induction =>
    cases index with
    | zero =>
      rw [getElem?_cons_zero] at found
      cases found
      rw [filter_cons_of_pos holds]
      have none : tail.filter test = [] := by
        apply filter_eq_nil_iff.mpr
        intro entry member entryHolds
        obtain ⟨other, stored⟩ := getElem?_of_mem member
        have position := unique (other + 1) entry
          (by rw [getElem?_cons_succ]; exact stored) entryHolds
        omega
      rw [none]
    | succ index =>
      rw [getElem?_cons_succ] at found
      have headFails : ¬ test head = true := by
        intro headHolds
        have position := unique 0 head getElem?_cons_zero headHolds
        omega
      rw [filter_cons_of_neg headFails]
      apply induction found
      intro other entry stored entryHolds
      have position := unique (other + 1) entry
        (by rw [getElem?_cons_succ]; exact stored) entryHolds
      omega

theorem filter_eq_take {count : Nat} (first : ∀ (index : Nat) item, items[index]? = some item →
      (test item = true ↔ index < count)) :
    items.filter test = items.take count := by
  induction items generalizing count with
  | nil => rw [filter_nil, take_nil]
  | cons head tail induction =>
    have headFirst := first 0 head getElem?_cons_zero
    cases count with
    | zero =>
      rw [take_zero]
      apply filter_eq_nil_iff.mpr
      intro item member holds
      obtain ⟨index, stored⟩ := getElem?_of_mem member
      have inside := (first index item stored).mp holds
      omega
    | succ count =>
      rw [filter_cons_of_pos (headFirst.mpr (Nat.succ_pos count)), take_succ_cons]
      apply congrArg (cons head)
      apply induction
      intro index item stored
      have later := first (index + 1) item (by rw [getElem?_cons_succ]; exact stored)
      rw [later]
      omega

theorem all_take_drop {first last : Nat}
    (holds : ∀ (index : Nat) item, first ≤ index → index < last →
      items[index]? = some item → test item = true) :
    ((items.take last).drop first).all test = true := by
  apply all_eq_true.mpr
  intro item member
  obtain ⟨index, stored⟩ := getElem?_of_mem member
  rw [getElem?_drop, getElem?_take] at stored
  split at stored
  · rename_i inside
    exact holds (first + index) item (Nat.le_add_right first index) inside stored
  · cases stored

section Lookup

variable {Key : Type v} [BEq Key] [LawfulBEq Key] [DecidableEq Key]

theorem lookup_cons_ite (key : Key) (head : Key × Item)
    (rest : List (Key × Item)) : (head :: rest).lookup key =
      if key = head.1 then some head.2 else rest.lookup key := by
  rw [lookup_cons]
  by_cases same : key = head.1
  · simp [same]
  · simp [same, beq_eq_false_iff_ne.mpr same]

theorem lookup_filter_ne (entries : List (Key × Item)) (key other : Key) :
    (entries.filter (fun entry => entry.1 ≠ key)).lookup other =
      if other = key then none else entries.lookup other := by
  induction entries with
  | nil => simp
  | cons head rest induction =>
    by_cases isKey : head.1 = key
    · rw [filter_cons_of_neg (by simpa using isKey), induction, lookup_cons_ite, isKey]
      by_cases same : other = key <;> simp [same]
    · rw [filter_cons_of_pos (by simpa using isKey), lookup_cons_ite, lookup_cons_ite, induction]
      by_cases atHead : other = head.1
      · simp [atHead, isKey]
      · simp [atHead]

theorem lookup_of_mem {entries : List (Key × Item)} (distinct : (entries.map Prod.fst).Nodup)
    {key : Key} {value : Item} (member : (key, value) ∈ entries) :
    entries.lookup key = some value := by
  induction entries with
  | nil => cases member
  | cons head tail induction =>
    obtain ⟨fresh, tailDistinct⟩ := nodup_cons.mp distinct
    rw [lookup_cons_ite]
    rcases mem_cons.mp member with isHead | later
    · rw [← isHead, if_pos rfl]
    · rw [if_neg, induction tailDistinct later]
      intro same
      exact fresh (same ▸ mem_map_of_mem later)

end Lookup

theorem getLast?_take_succ {item : Item} (found : items[index]? = some item) :
    (items.take (index + 1)).getLast? = some item := by
  rw [take_add_one, found, Option.toList_some, getLast?_concat]

theorem filterMap_set {Key : Type v} {key : Item → Option Key} {new : Item}
    (found : items[index]? = some old) (sameKey : key new = key old) :
    (items.set index new).filterMap key = items.filterMap key := by
  induction items generalizing index with
  | nil => cases found
  | cons head rest induction =>
    cases index with
    | zero =>
      cases found
      rw [set_cons_zero, filterMap_cons, filterMap_cons, sameKey]
    | succ index =>
      rw [set_cons_succ, filterMap_cons, filterMap_cons,
        induction found]

end MatrixSpooll.Library
