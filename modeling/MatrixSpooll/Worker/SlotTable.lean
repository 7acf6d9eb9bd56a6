import MatrixSpooll.Library.Dict

/-!
# Capacity and occupancy

`CapacityTable` and `SlotTable` of `lib/generation_worker.py`.  A future is
named by the number of the execution it belongs to, and whether it is done is
a predicate the caller supplies.  No empty bucket is ever stored: that is a
field of the table.
-/

namespace MatrixSpooll.Worker

open Library List Dict Option

structure CapacityTable where
  limits : Dict String (Dict String Nat)
  defaults : Dict String Nat

/-- A known provider without the lane has no capacity; an unknown provider has
the default of the lane. -/
def CapacityTable.get (table : CapacityTable) (provider media : String) : Nat :=
  match table.limits.get? provider with
  | none => (table.defaults.get? media).getD 0
  | some lanes => (lanes.get? media).getD 0

/-- The table of a worker whose environment grants one slot in every lane,
before any provider is configured. -/
def CapacityTable.oneSlot : CapacityTable :=
  { limits := .empty
    defaults := (((empty.put "image" 1).put "video" 1).put "audio" 1).put "postprocess" 1 }

structure Occupant where
  task : Nat
  pending : Bool
  deriving DecidableEq, Repr

abbrev Bucket := Dict String Occupant

/-- Provider and media type. -/
abbrev BucketKey := String × String

structure SlotTable where
  slots : Dict BucketKey Bucket
  noEmpty : ∀ row ∈ slots.rows, row.2.rows ≠ []

namespace SlotTable

def empty : SlotTable :=
  { slots := .empty
    noEmpty := by
      intro row member
      cases member }

variable (table : SlotTable) (key : BucketKey) (taskId : String)

/-- The occupants under a key; a missing bucket has none. -/
def bucket : Bucket :=
  (table.slots.get? key).getD .empty

private theorem noEmpty_put {slots : Dict BucketKey Bucket}
    (noEmpty : ∀ row ∈ slots.rows, row.2.rows ≠ []) (key : BucketKey)
    {stored : Bucket} (inhabited : stored.rows ≠ []) :
    ∀ row ∈ (slots.put key stored).rows, row.2.rows ≠ [] := by
  intro row member
  rw [rows_put, mem_append, mem_cons] at member
  rcases member with front | new | back
  · exact noEmpty row (mem_of_mem_before front)
  · subst new
    exact inhabited
  · exact noEmpty row (mem_of_mem_after back)

def register (occupant : Occupant) : SlotTable :=
  { slots := table.slots.put key ((table.bucket key).put taskId occupant)
    noEmpty := by
      apply noEmpty_put table.noEmpty
      rw [rows_put]
      simp }

/-- `promote`: the pending flag of one occupant is cleared. -/
def promote : SlotTable :=
  { slots := table.slots.mapValues (fun stored bucket =>
      if stored = key then
        bucket.mapValues (fun id occupant =>
          if id = taskId then { occupant with pending := false }
          else occupant)
      else bucket)
    noEmpty := by
      intro row member
      obtain ⟨old, oldMember, same⟩ := mem_map.mp member
      subst same
      simp only [if_true]
      split
      · simpa [mapValues, KeyedTable.update] using table.noEmpty old oldMember
      · exact table.noEmpty old oldMember }

/-- `release`: the occupant goes, and the bucket with its last occupant. -/
def release : SlotTable :=
  match table.slots.get? key with
  | none => table
  | some bucket =>
    if left : (bucket.remove taskId).rows = [] then
      { slots := table.slots.remove key
        noEmpty := by
          intro row member
          exact table.noEmpty row (mem_of_mem_filter member) }
    else
      { slots := table.slots.put key (bucket.remove taskId)
        noEmpty := noEmpty_put table.noEmpty key left }

/-- `has_room`; pending occupants count. -/
def hasRoom (capacity : Nat) : Bool :=
  if capacity = 0 then false
  else (table.bucket key).rows.length < capacity

def occupiedProviders (media : String) : List String :=
  table.slots.rows.filterMap (fun row => if row.1.2 = media then some row.1.1 else none)

/-- `find_by_task`: the first bucket that holds the task decides. -/
def findByTask : Option Nat :=
  table.slots.rows.findSome? (fun row => (row.2.get? taskId).map Occupant.task)

/-- What `drain_finished` leaves in a bucket. -/
def undrained (done : Nat → Bool) (bucket : Bucket) : Bucket :=
  bucket.retain (fun _ occupant => occupant.pending || !done occupant.task)

/-- `drain_finished`: the table and the removed executions. -/
def drainFinished (done : Nat → Bool) : SlotTable × List (String × Nat) :=
  ({ slots := (table.slots.mapValues (fun _ => undrained done)).retain
        (fun _ bucket => !bucket.rows.isEmpty)
     noEmpty := by
      intro row member
      have kept := (mem_filter.mp member).2
      intro none
      simp [none] at kept },
    table.slots.rows.flatMap (fun row =>
      (row.2.rows.filter (fun entry =>
        !entry.2.pending && done entry.2.task)).map (fun entry => (entry.1, entry.2.task))))

def activeTaskIds : List String :=
  table.slots.rows.flatMap (fun row => row.2.rows.map Prod.fst)

/-! ## What each operation does to a bucket -/

section

variable (table : SlotTable) (key other : BucketKey) (taskId : String)

theorem bucket_register (occupant : Occupant) : (table.register key taskId occupant).bucket other =
      if other = key then (table.bucket key).put taskId occupant
      else table.bucket other := by
  show ((table.slots.put key _).get? other).getD .empty = _
  rw [get?_put]
  split <;> rfl

theorem bucket_promote : (table.promote key taskId).bucket other =
      if other = key then
        (table.bucket key).mapValues (fun id occupant =>
          if id = taskId then { occupant with pending := false }
          else occupant)
      else table.bucket other := by
  show ((table.slots.mapValues _).get? other).getD .empty = _
  rw [get?_mapValues]
  by_cases same : other = key
  · subst same
    simp only [if_true, bucket]
    cases table.slots.get? other <;> rfl
  · simp only [same, if_false, bucket]
    cases table.slots.get? other <;> rfl

theorem bucket_release : (table.release key taskId).bucket other =
      if other = key then (table.bucket key).remove taskId
      else table.bucket other := by
  unfold release
  split
  · rename_i missing
    by_cases same : other = key
    · subst same
      simp only [if_true, bucket, missing]
      rfl
    · rw [if_neg same]
  · rename_i stored found
    split
    · rename_i left
      show ((table.slots.remove key).get? other).getD .empty = _
      rw [get?_remove]
      by_cases same : other = key
      · subst same
        simp only [if_true, bucket, found]
        exact (KeyedTable.ext left).symm
      · simp only [same, if_false, bucket]
    · show ((table.slots.put key _).get? other).getD .empty = _
      rw [get?_put]
      by_cases same : other = key
      · subst same
        simp only [if_true, bucket, found]
        rfl
      · simp only [same, if_false, bucket]

theorem bucket_drainFinished (done : Nat → Bool) (key : BucketKey) :
    (table.drainFinished done).1.bucket key = undrained done (table.bucket key) := by
  show (((table.slots.mapValues _).retain _).get? key).getD .empty = _
  rw [get?_retain, get?_mapValues]
  simp only [bucket]
  cases table.slots.get? key with
  | none => rfl
  | some stored =>
    simp only [map_some, filter_some, getD_some]
    split
    · rfl
    · rename_i none
      have emptied : (undrained done stored).rows = [] := by
        simpa using none
      exact KeyedTable.ext emptied.symm

theorem get?_promote (wanted : String) : ((table.promote key taskId).bucket other).get? wanted =
      if other = key ∧ wanted = taskId then
        ((table.bucket other).get? wanted).map (fun occupant => { occupant with pending := false })
      else (table.bucket other).get? wanted := by
  rw [bucket_promote]
  by_cases sameKey : other = key
  · subst sameKey
    rw [if_pos rfl, get?_mapValues]
    by_cases sameTask : wanted = taskId
    all_goals simp [sameTask]
  · simp [sameKey]

theorem get?_release (wanted : String) : ((table.release key taskId).bucket other).get? wanted =
      if other = key ∧ wanted = taskId then none
      else (table.bucket other).get? wanted := by
  rw [bucket_release]
  by_cases sameKey : other = key
  · subst sameKey
    rw [if_pos rfl, get?_remove]
    simp
  · simp [sameKey]

theorem get?_drainFinished (done : Nat → Bool) (key : BucketKey) (taskId : String) :
    (((table.drainFinished done).1).bucket key).get? taskId =
      ((table.bucket key).get? taskId).filter
        (fun occupant => occupant.pending || !done occupant.task) := by
  rw [bucket_drainFinished]
  exact get?_retain _ _ taskId

/-! ## Who holds a task -/

/-- The futures registered for a task, in table order. -/
def holders (table : SlotTable) (taskId : String) : List Nat :=
  table.slots.rows.filterMap (fun row => (row.2.get? taskId).map Occupant.task)

theorem findByTask_eq_head : table.findByTask taskId = (table.holders taskId).head? :=
  head?_filterMap.symm

end

theorem mem_holders {table : SlotTable} {key : BucketKey} {taskId : String} {occupant : Occupant}
    (stored : (table.bucket key).get? taskId = some occupant) :
    occupant.task ∈ table.holders taskId := by
  unfold bucket at stored
  cases found : table.slots.get? key with
  | none =>
    rw [found] at stored
    cases stored
  | some bucket =>
    rw [found] at stored
    apply mem_filterMap.mpr
    refine ⟨(key, bucket), get?_eq_some_iff.mp found, ?_⟩
    simp only [getD_some] at stored
    simp [stored]

variable (table : SlotTable) (key : BucketKey)

theorem holders_register_other {taskId wanted : String} (occupant : Occupant)
    (different : wanted ≠ taskId) : (table.register key taskId occupant).holders wanted =
      table.holders wanted := by
  unfold holders register bucket
  rw [rows_put, filterMap_append, filterMap_cons, get?_put, if_neg different]
  cases found : table.slots.get? key with
  | none =>
    obtain ⟨front, back⟩ := before_after_of_missing found
    simp [front, back]
  | some bucket =>
    rw [rows_eq_before_after found]
    rw [filterMap_append, filterMap_cons]
    rfl

theorem holders_promote (taskId wanted : String) :
    (table.promote key taskId).holders wanted = table.holders wanted := by
  unfold holders promote
  rw [rows_mapValues, filterMap_map]
  apply filterMap_congr
  intro row _
  simp only [Function.comp_apply]
  by_cases same : row.1 = key
  · rw [if_pos same, get?_mapValues, Option.map_map]
    cases row.2.get? wanted with
    | none => rfl
    | some occupant =>
      simp only [map_some, Function.comp_apply]
      split <;> rfl
  · rw [if_neg same]

private theorem filterMap_sublist {rows : List (BucketKey × Bucket)}
    {fewer more : BucketKey × Bucket → Option Nat}
    (within : ∀ row, fewer row = none ∨ fewer row = more row) :
    (rows.filterMap fewer).Sublist (rows.filterMap more) := by
  induction rows with
  | nil => exact .slnil
  | cons row rows induction =>
    rw [filterMap_cons, filterMap_cons]
    rcases within row with none | same
    · rw [none]
      cases more row with
      | none => exact induction
      | some future => exact .cons future induction
    · rw [same]
      cases more row with
      | none => exact induction
      | some future => exact .cons_cons future induction

theorem holders_release_sublist (taskId wanted : String) :
    ((table.release key taskId).holders wanted).Sublist (table.holders wanted) := by
  unfold release
  split
  · exact .refl _
  · rename_i bucket found
    split
    · exact filter_sublist.filterMap _
    · unfold holders
      rw [rows_put, filterMap_append, filterMap_cons]
      rw [rows_eq_before_after found]
      rw [filterMap_append, filterMap_cons]
      apply Sublist.append (.refl _)
      rw [get?_remove]
      by_cases same : wanted = taskId
      · rw [if_pos same]
        cases bucket.get? wanted with
        | none => exact .refl _
        | some occupant => exact .cons _ (.refl _)
      · rw [if_neg same]

theorem holders_drainFinished_sublist (done : Nat → Bool) (wanted : String) :
    ((table.drainFinished done).1.holders wanted).Sublist (table.holders wanted) := by
  have kept : ((table.drainFinished done).1.holders wanted).Sublist
      ((table.slots.mapValues (fun _ => undrained done)).rows.filterMap
        (fun row => (row.2.get? wanted).map Occupant.task)) :=
    filter_sublist.filterMap _
  apply kept.trans
  unfold holders
  rw [rows_mapValues, filterMap_map]
  apply filterMap_sublist
  intro row
  simp only [Function.comp_apply, undrained]
  rw [get?_retain]
  cases row.2.get? wanted with
  | none => exact .inl rfl
  | some occupant =>
    rw [filter_some]
    split
    · exact .inr rfl
    · exact .inl rfl

end SlotTable

end MatrixSpooll.Worker
