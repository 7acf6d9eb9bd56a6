import MatrixSpooll.Library.Fold
import MatrixSpooll.Library.KeyedTable
import Mathlib.Data.List.TakeWhile

/-!
# Insertion-ordered dictionaries

A dictionary is a table of pairs keyed by the first component.  Writing to a
present key keeps its place, writing to a new key appends it; `rows_put` says
both at once, with `before` and `after` the entries around the key.
-/

namespace MatrixSpooll.Library

open List KeyedTable

abbrev Dict (Key : Type u) (Value : Type v) :=
  KeyedTable (Key × Value) Key Prod.fst

namespace Dict

variable {Key : Type u} {Value : Type v} [DecidableEq Key]

def empty : Dict Key Value := KeyedTable.empty

variable (dict : Dict Key Value)

def get? (key : Key) : Option Value :=
  (dict.find? key).map Prod.snd

def put (key : Key) (value : Value) : Dict Key Value :=
  match dict.insert? (key, value) with
  | some extended => extended
  | none => dict.update (fun row => row.1 = key) (fun row => (row.1, value))
      (fun _ => rfl)

def retain (keep : Key → Value → Bool) : Dict Key Value :=
  { rows := dict.rows.filter (fun row => keep row.1 row.2)
    keysNodup :=
      dict.keysNodup.sublist (filter_sublist.map Prod.fst) }

def remove (key : Key) : Dict Key Value :=
  dict.retain (fun other _ => other ≠ key)

def mapValues (change : Key → Value → Value) : Dict Key Value :=
  dict.update (fun _ => true) (fun row => (row.1, change row.1 row.2)) (fun _ => rfl)

variable {dict : Dict Key Value} {key : Key}

theorem get?_eq_some_iff {value : Value} :
    dict.get? key = some value ↔ (key, value) ∈ dict.rows := by
  unfold get?
  rw [Option.map_eq_some_iff]
  constructor
  · intro found
    obtain ⟨row, rowFound, valueEq⟩ := found
    obtain ⟨member, keyEq⟩ := find?_eq_some_iff.mp rowFound
    have same : row = (key, value) := Prod.ext keyEq valueEq
    rw [← same]
    exact member
  · intro member
    exact ⟨(key, value), find?_of_mem member, rfl⟩

theorem get?_eq_none_iff : dict.get? key = none ↔ ∀ value, (key, value) ∉ dict.rows := by
  constructor
  · intro missing value member
    rw [get?_eq_some_iff.mpr member] at missing
    cases missing
  · intro absent
    cases found : dict.get? key with
    | none => rfl
    | some value => exact absurd (get?_eq_some_iff.mp found) (absent value)

@[simp] theorem get?_empty (key : Key) : (empty : Dict Key Value).get? key = none := rfl

/-- Entries ahead of a key, all of them if the key is new. -/
def before (dict : Dict Key Value) (key : Key) : List (Key × Value) :=
  dict.rows.takeWhile (fun row => row.1 ≠ key)

/-- Entries behind a key, none if the key is new. -/
def after (dict : Dict Key Value) (key : Key) : List (Key × Value) :=
  (dict.rows.dropWhile (fun row => row.1 ≠ key)).tail

variable {row : Key × Value}

theorem mem_of_mem_before (member : row ∈ dict.before key) : row ∈ dict.rows :=
  (takeWhile_sublist _).subset member

theorem mem_of_mem_after (member : row ∈ dict.after key) : row ∈ dict.rows :=
  (dropWhile_sublist _).subset (mem_of_mem_tail member)

private theorem takeWhile_dropWhile_key {rows : List (Key × Value)}
    (present : key ∈ rows.map Prod.fst) :
    ∃ value, rows = rows.takeWhile (fun row => row.1 ≠ key) ++ (key, value) ::
      (rows.dropWhile (fun row => row.1 ≠ key)).tail := by
  induction rows with
  | nil => cases present
  | cons head tail induction =>
    by_cases same : head.1 = key
    · subst same
      exact ⟨head.2, by simp⟩
    · have later : key ∈ tail.map Prod.fst := by
        rcases mem_cons.mp present with isHead | inTail
        · exact absurd isHead.symm same
        · exact inTail
      obtain ⟨value, split⟩ := induction later
      refine ⟨value, ?_⟩
      rw [takeWhile_cons_of_pos (by simpa using same),
        dropWhile_cons_of_pos (by simpa using same), cons_append,
        ← split]

theorem rows_eq_before_after {value : Value} (found : dict.get? key = some value) :
    dict.rows = dict.before key ++ (key, value) :: dict.after key := by
  have member := get?_eq_some_iff.mp found
  obtain ⟨stored, split⟩ := takeWhile_dropWhile_key (mem_map.mpr ⟨(key, value), member, rfl⟩)
  have storedMember : (key, stored) ∈ dict.rows := by
    rw [split]
    simp
  have same : (key, stored) = (key, value) := eq_of_key_eq storedMember member rfl
  rw [same] at split
  exact split

theorem before_after_of_missing (missing : dict.get? key = none) :
    dict.before key = dict.rows ∧ dict.after key = [] := by
  have absent := get?_eq_none_iff.mp missing
  have different : ∀ row ∈ dict.rows, decide (row.1 ≠ key) = true := by
    intro row member
    rw [decide_eq_true_eq]
    intro same
    subst same
    exact absent row.2 member
  constructor
  · exact takeWhile_eq_self_iff.mpr different
  · unfold after
    rw [dropWhile_eq_nil_iff.mpr different]
    rfl

theorem key_not_mem_before (member : row ∈ dict.before key) : row.1 ≠ key := by
  have kept := mem_takeWhile_imp member
  simpa using kept

theorem decide_ne_before (dict : Dict Key Value) (key : Key) :
    ∀ row ∈ dict.before key, decide (row.1 ≠ key) = true :=
  fun _ member => decide_eq_true (key_not_mem_before member)

theorem key_not_mem_after (member : row ∈ dict.after key) : row.1 ≠ key := by
  cases found : dict.get? key with
  | none =>
    rw [(before_after_of_missing found).2] at member
    cases member
  | some stored =>
    have nodup := dict.keysNodup
    rw [rows_eq_before_after found, map_append, map_cons, nodup_append] at nodup
    obtain ⟨_, behind, _⟩ := nodup
    intro same
    apply (nodup_cons.mp behind).1
    exact mem_map.mpr ⟨row, member, same⟩

private theorem map_unless_key {rows : List (Key × Value)} {change : Key × Value → Key × Value}
    (different : ∀ row ∈ rows, row.1 ≠ key) :
    rows.map (fun row => if row.1 = key then change row else row) = rows := by
  rw [map_congr_left (g := id)]
  · exact map_id rows
  · intro row member
    exact if_neg (different row member)

section

variable (dict)

section

variable (key : Key) (value : Value)

/-- Writing keeps the place of a present key and appends a new one. -/
theorem rows_put : (dict.put key value).rows =
      dict.before key ++ (key, value) :: dict.after key := by
  cases found : dict.get? key with
  | none =>
    obtain ⟨front, back⟩ := before_after_of_missing found
    have fresh : key ∉ dict.rows.map Prod.fst := by
      intro taken
      obtain ⟨row, member, same⟩ := mem_map.mp taken
      subst same
      exact get?_eq_none_iff.mp found row.2 member
    rw [front, back]
    simp [put, insert?, fresh]
  | some stored =>
    have split := rows_eq_before_after found
    have taken : key ∈ dict.rows.map Prod.fst :=
      mem_map.mpr ⟨(key, stored), get?_eq_some_iff.mp found, rfl⟩
    have refused : dict.insert? (key, value) = none := by
      unfold insert?
      exact dif_pos taken
    unfold put
    rw [refused]
    simp only [update, decide_eq_true_eq]
    rw [split, map_append, map_cons, map_unless_key (fun row => key_not_mem_before),
      map_unless_key (fun row => key_not_mem_after), if_pos rfl]

theorem before_put : (dict.put key value).before key = dict.before key := by
  show ((dict.put key value).rows).takeWhile _ = _
  rw [rows_put, takeWhile_append_of_pos (decide_ne_before dict key)]
  simp

theorem after_put : (dict.put key value).after key = dict.after key := by
  show (((dict.put key value).rows).dropWhile _).tail = _
  rw [rows_put, dropWhile_append_of_pos (decide_ne_before dict key)]
  simp

end

theorem get?_put (key other : Key) (value : Value) : (dict.put key value).get? other =
      if other = key then some value else dict.get? other := by
  by_cases same : other = key
  · subst same
    rw [if_pos rfl, get?_eq_some_iff, rows_put]
    simp
  · rw [if_neg same]
    have sameRows : ∀ stored, (other, stored) ∈ (dict.put key value).rows ↔
        (other, stored) ∈ dict.rows := by
      intro stored
      rw [rows_put]
      cases found : dict.get? key with
      | none =>
        obtain ⟨front, back⟩ := before_after_of_missing found
        simp [front, back, same]
      | some old =>
        rw [rows_eq_before_after found]
        simp [same]
    cases found : dict.get? other with
    | none =>
      rw [get?_eq_none_iff] at found ⊢
      intro stored member
      exact found stored ((sameRows stored).mp member)
    | some stored =>
      rw [get?_eq_some_iff] at found ⊢
      exact (sameRows stored).mpr found

theorem get?_retain (keep : Key → Value → Bool) (key : Key) :
    (dict.retain keep).get? key = (dict.get? key).filter (keep key) := by
  cases found : dict.get? key with
  | none =>
    rw [get?_eq_none_iff] at found
    simp only [Option.filter_none]
    rw [get?_eq_none_iff]
    intro value member
    exact found value (mem_of_mem_filter member)
  | some value =>
    have member := get?_eq_some_iff.mp found
    cases kept : keep key value with
    | true =>
      rw [Option.filter_some, kept, if_pos rfl, get?_eq_some_iff]
      exact mem_filter.mpr ⟨member, kept⟩
    | false =>
      rw [Option.filter_some, kept, if_neg (by simp), get?_eq_none_iff]
      intro other otherMember
      obtain ⟨listed, holds⟩ := mem_filter.mp otherMember
      have same : (key, other) = (key, value) := eq_of_key_eq listed member rfl
      cases same
      simp only [kept] at holds
      cases holds

theorem get?_remove (key other : Key) : (dict.remove key).get? other =
      if other = key then none else dict.get? other := by
  unfold remove
  rw [get?_retain]
  by_cases same : other = key
  · simp [same]
  · cases dict.get? other <;> simp [same]

omit [DecidableEq Key] in
theorem rows_mapValues (change : Key → Value → Value) : (dict.mapValues change).rows =
      dict.rows.map (fun row => (row.1, change row.1 row.2)) := by
  simp [mapValues, update]

theorem get?_mapValues (change : Key → Value → Value) (key : Key) :
    (dict.mapValues change).get? key = (dict.get? key).map (change key) := by
  unfold mapValues get?
  rw [find?_update]
  cases found : dict.find? key with
  | none => rfl
  | some row =>
    have keyEq := find?_key found
    subst keyEq
    rfl

theorem length_put_le (key : Key) (value : Value) :
    (dict.put key value).rows.length ≤ dict.rows.length + 1 := by
  rw [rows_put]
  cases found : dict.get? key with
  | none =>
    obtain ⟨front, back⟩ := before_after_of_missing found
    simp [front, back]
  | some old =>
    rw [rows_eq_before_after found]
    simp

end

/-! ## A loop that writes one entry for each item -/

section Loop

variable {Item : Type w} {keyOf : Item → Key} {valueOf : Item → Value} {items : List Item}

theorem get?_foldl_put_of_missing (missing : key ∉ items.map keyOf) (dict : Dict Key Value) :
    (items.foldl (fun dict item => dict.put (keyOf item) (valueOf item))
      dict).get? key = dict.get? key := by
  apply foldl_keeps (fun dict : Dict Key Value => dict.get? key)
  intro dict item member
  have different : key ≠ keyOf item := by
    intro same
    exact missing (same ▸ mem_map_of_mem member)
  rw [get?_put, if_neg different]

theorem get?_foldl_put_of_mem {item : Item} (member : item ∈ items)
    (agree : ∀ other ∈ items, keyOf other = keyOf item →
      valueOf other = valueOf item) (dict : Dict Key Value) :
    (items.foldl (fun dict item => dict.put (keyOf item) (valueOf item))
      dict).get? (keyOf item) = some (valueOf item) := by
  induction items generalizing item dict with
  | nil => cases member
  | cons head items induction =>
    rw [foldl_cons]
    by_cases later : keyOf item ∈ items.map keyOf
    · obtain ⟨other, inside, sameKey⟩ := mem_map.mp later
      have sameValue := agree other (mem_cons_of_mem _ inside) sameKey
      rw [← sameKey, ← sameValue]
      apply induction inside
      intro third isThird again
      rw [sameValue]
      exact agree third (mem_cons_of_mem _ isThird) (again.trans sameKey)
    · rcases mem_cons.mp member with same | inside
      · rw [get?_foldl_put_of_missing later, get?_put, same, if_pos rfl]
      · exact absurd (mem_map_of_mem inside) later

end Loop

end Dict

end MatrixSpooll.Library
