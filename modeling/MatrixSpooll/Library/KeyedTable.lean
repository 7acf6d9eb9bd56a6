import Mathlib.Data.List.Nodup

/-!
# Tables with a primary key

A table is a list of rows whose keys are pairwise different.  The operations
are the ones a relational engine offers to a repository: insertion that fails
on a key conflict, lookup by key, selection, and a guarded `UPDATE` that
reports how many rows it matched.
-/

namespace MatrixSpooll.Library

open List

/-- Rows whose keys are pairwise different. -/
@[ext] structure KeyedTable (Row : Type u) (Key : Type v) (key : Row → Key) where
  rows : List Row
  keysNodup : (rows.map key).Nodup

namespace KeyedTable

variable {Row : Type u} {Key : Type v} {key : Row → Key}

def empty : KeyedTable Row Key key :=
  { rows := []
    keysNodup := nodup_nil }

variable (table : KeyedTable Row Key key)

def select (guard : Row → Bool) : List Row :=
  table.rows.filter guard

/-- Number of rows a guard matches: what `UPDATE` reports as its rowcount. -/
def rowcount (guard : Row → Bool) : Nat :=
  table.rows.countP guard

private theorem map_key_update (guard : Row → Bool) (assign : Row → Row)
    (keyFixed : ∀ row, key (assign row) = key row) (rows : List Row) :
    (rows.map (fun row => if guard row then assign row else row)).map key = rows.map key := by
  rw [map_map]
  apply map_congr_left
  intro row _
  simp only [Function.comp_apply]
  split
  · exact keyFixed row
  · rfl

/-- `UPDATE ... WHERE guard`; the assignment never touches the key. -/
def update (guard : Row → Bool) (assign : Row → Row)
    (keyFixed : ∀ row, key (assign row) = key row) : KeyedTable Row Key key :=
  { rows := table.rows.map (fun row => if guard row then assign row else row)
    keysNodup := by
      rw [map_key_update guard assign keyFixed]
      exact table.keysNodup }

def delete (guard : Row → Bool) : KeyedTable Row Key key :=
  { rows := table.rows.filter (fun row => !guard row)
    keysNodup := table.keysNodup.sublist (filter_sublist.map key) }

variable {guard : Row → Bool}

theorem rowcount_eq_zero_iff {table : KeyedTable Row Key key} :
    table.rowcount guard = 0 ↔ ∀ row ∈ table.rows, guard row = false := by
  simp [rowcount, countP_eq_zero]

theorem rowcount_update_le (table : KeyedTable Row Key key) {test : Row → Bool}
    {assign : Row → Row} (keyFixed : ∀ row, key (assign row) = key row)
    (falls : ∀ row, guard row = true → test (assign row) = true → test row = true) :
    (table.update guard assign keyFixed).rowcount test ≤ table.rowcount test := by
  simp only [rowcount, update, countP_map]
  apply countP_mono_left
  intro row _ holds
  simp only [Function.comp_apply] at holds
  split at holds
  · exact falls row (by assumption) holds
  · exact holds

theorem rowcount_update_lt (table : KeyedTable Row Key key) {test : Row → Bool}
    {assign : Row → Row} (keyFixed : ∀ row, key (assign row) = key row)
    (falls : ∀ row, guard row = true → test (assign row) = false)
    {witness : Row} (member : witness ∈ table.rows)
    (matched : guard witness = true) (held : test witness = true) :
    (table.update guard assign keyFixed).rowcount test < table.rowcount test := by
  simp only [rowcount, update, countP_map]
  -- every row that still passes the test passed it before, and one no longer does
  have among : table.rows.countP (test ∘ fun row => if guard row then assign row else row) =
      (table.rows.filter test).countP
        (test ∘ fun row => if guard row then assign row else row) := by
    rw [countP_filter]
    apply countP_congr
    intro row _
    by_cases rowMatched : guard row = true <;> simp [rowMatched, falls]
  rw [among, countP_eq_length_filter, countP_eq_length_filter, length_filter_lt_length_iff_exists]
  exact ⟨witness, mem_filter.mpr ⟨member, held⟩, by simp [matched, falls]⟩

section Lookup

variable [DecidableEq Key]

def find? (table : KeyedTable Row Key key) (wanted : Key) : Option Row :=
  table.rows.find? (fun row => key row = wanted)

/-- `INSERT`: refused when the key is already taken. -/
def insert? (table : KeyedTable Row Key key) (row : Row) : Option (KeyedTable Row Key key) :=
  if taken : key row ∈ table.rows.map key then none
  else
    some
      { rows := table.rows ++ [row]
        keysNodup := by
          rw [map_append, map_singleton]
          exact nodup_append.mpr ⟨table.keysNodup, by simp, by
            intro first firstMember second secondMember equality
            rw [mem_singleton] at secondMember
            subst secondMember
            exact taken (equality ▸ firstMember)⟩ }

variable {table : KeyedTable Row Key key} {wanted : Key} {row : Row}

omit [DecidableEq Key] in
theorem eq_of_key_eq {first second : Row}
    (firstMember : first ∈ table.rows) (secondMember : second ∈ table.rows)
    (same : key first = key second) : first = second :=
  inj_on_of_nodup_map table.keysNodup firstMember secondMember same

theorem find?_eq_some_iff :
    table.find? wanted = some row ↔ row ∈ table.rows ∧ key row = wanted := by
  have kept : ∀ row, table.find? wanted = some row → row ∈ table.rows ∧ key row = wanted := by
    intro row found
    exact ⟨mem_of_find?_eq_some found, by simpa using find?_some found⟩
  refine ⟨kept row, ?_⟩
  intro stored
  obtain ⟨other, found⟩ : ∃ other, table.find? wanted = some other := by
    rw [← Option.isSome_iff_exists, find?, find?_isSome]
    exact ⟨row, stored.1, decide_eq_true stored.2⟩
  obtain ⟨member, sameKey⟩ := kept other found
  rw [← eq_of_key_eq member stored.1 (sameKey.trans stored.2.symm)]
  exact found

theorem find?_eq_none_iff : table.find? wanted = none ↔ wanted ∉ table.rows.map key := by
  simp [find?, find?_eq_none]

theorem find?_key (found : table.find? wanted = some row) : key row = wanted :=
  (find?_eq_some_iff.mp found).2

theorem find?_mem (found : table.find? wanted = some row) : row ∈ table.rows :=
  (find?_eq_some_iff.mp found).1

theorem find?_of_mem (member : row ∈ table.rows) : table.find? (key row) = some row :=
  find?_eq_some_iff.mpr ⟨member, rfl⟩

theorem find?_update (table : KeyedTable Row Key key) (guard : Row → Bool)
    (assign : Row → Row) (keyFixed : ∀ row, key (assign row) = key row)
    (wanted : Key) : (table.update guard assign keyFixed).find? wanted = (table.find? wanted).map
        (fun row => if guard row then assign row else row) := by
  simp only [find?, update, find?_map]
  congr 1
  apply congrArg (fun test => List.find? test table.rows)
  funext row
  simp only [Function.comp_apply, decide_eq_decide]
  split
  · rw [keyFixed row]
  · exact Iff.rfl

theorem find?_insert {inserted : KeyedTable Row Key key}
    (success : table.insert? row = some inserted) (wanted : Key) :
    inserted.find? wanted = if key row = wanted then some row else table.find? wanted := by
  unfold insert? at success
  split at success <;> cases success
  rename_i fresh
  by_cases same : key row = wanted
  · rw [if_pos same]
    exact find?_eq_some_iff.mpr ⟨by simp, same⟩
  · rw [if_neg same]
    simp [find?, find?_append, same]

theorem find?_delete (table : KeyedTable Row Key key) (gone wanted : Key) :
    (table.delete (fun row => key row = gone)).find? wanted =
      if wanted = gone then none else table.find? wanted := by
  simp only [find?, delete, find?_filter]
  by_cases same : wanted = gone
  · rw [if_pos same, find?_eq_none]
    intro row _
    simp [same]
  · rw [if_neg same]
    apply congrArg (fun test => List.find? test table.rows)
    funext row
    by_cases isWanted : key row = wanted
    · simp [isWanted, same]
    · simp [isWanted]

theorem insert?_fresh {inserted : KeyedTable Row Key key}
    (success : table.insert? row = some inserted) :
    table.find? (key row) = none := by
  unfold insert? at success
  split at success
  · cases success
  · rename_i fresh
    exact find?_eq_none_iff.mpr fresh

theorem rowcount_key_pos {test : Row → Bool}
    (matched : table.rowcount (fun row => (key row = wanted) && test row) ≠ 0) :
    ∃ row, table.find? wanted = some row ∧ test row = true := by
  obtain ⟨row, member, holds⟩ := countP_pos_iff.mp (Nat.pos_of_ne_zero matched)
  rw [Bool.and_eq_true, decide_eq_true_eq] at holds
  exact ⟨row, find?_eq_some_iff.mpr ⟨member, holds.1⟩, holds.2⟩

theorem rowcount_key_le_one (table : KeyedTable Row Key key) (wanted : Key) (test : Row → Bool) :
    table.rowcount (fun row => (key row = wanted) && test row) ≤ 1 := by
  have once := nodup_iff_count_le_one.mp table.keysNodup wanted
  rw [count, countP_map] at once
  refine Nat.le_trans ?_ once
  apply countP_mono_left
  intro row _ holds
  rw [Bool.and_eq_true, decide_eq_true_eq] at holds
  simp [holds.1]

omit [DecidableEq Key] in
theorem key_mem_select_iff {guard : Row → Bool} (member : row ∈ table.rows) :
    key row ∈ (table.select guard).map key ↔ guard row = true := by
  constructor
  · intro listed
    obtain ⟨other, selected, same⟩ := mem_map.mp listed
    obtain ⟨otherMember, holds⟩ := mem_filter.mp selected
    rw [← eq_of_key_eq otherMember member same]
    exact holds
  · intro holds
    exact mem_map.mpr ⟨row, mem_filter.mpr ⟨member, holds⟩, rfl⟩

/-- Rows selected before an update and read back after it, by key and by a
test that the update makes true, are the updated rows. -/
theorem map_key_select_update (table : KeyedTable Row Key key)
    (guard test : Row → Bool) (assign : Row → Row) (keyFixed : ∀ row, key (assign row) = key row)
    (passes : ∀ row, test (assign row) = true) :
    ((table.update guard assign keyFixed).select (fun row =>
        key row ∈ (table.select guard).map key && test row)).map key =
      (table.select guard).map key := by
  have selected : ∀ row ∈ table.rows, (key (if guard row then assign row else row) ∈
          (table.select guard).map key &&
        test (if guard row then assign row else row)) = guard row := by
    intro row member
    have listed : key row ∈ (table.select guard).map key ↔ guard row = true :=
      key_mem_select_iff member
    cases holds : guard row with
    | true =>
      rw [holds] at listed
      simp only [if_true, keyFixed, passes, Bool.and_true, decide_eq_true_eq]
      exact listed.mpr rfl
    | false =>
      rw [holds] at listed
      simp [listed]
  simp only [select, update] at selected ⊢
  rw [filter_map, map_key_update guard assign keyFixed]
  exact congrArg (map key) (filter_congr selected)

end Lookup

end KeyedTable

end MatrixSpooll.Library
