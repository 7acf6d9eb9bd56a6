import MatrixSpooll.Library.Entries

/-!
# Directory listings

The entries of one directory in the order of their names.  Every reader of a
directory in the development sorts what it lists, so the listing is kept
sorted; that names are distinct follows.
-/

namespace MatrixSpooll.Library

open List

structure Listing (Name : Type u) [LinearOrder Name] (Node : Type v) where
  entries : List (Name × Node)
  sorted : entries.Pairwise (fun first second => first.1 < second.1)

namespace Listing

variable {Name : Type u} [LinearOrder Name] {Node : Type v} (listing : Listing Name Node)

def get? (name : Name) : Option Node :=
  listing.entries.lookup name

def insertEntry (name : Name) (node : Node) : List (Name × Node) → List (Name × Node)
  | [] => [(name, node)]
  | head :: rest =>
    if name < head.1 then (name, node) :: head :: rest
    else if name = head.1 then (name, node) :: rest
    else head :: insertEntry name node rest

theorem mem_insertEntry {name : Name} {node : Node}
    {entries : List (Name × Node)} {entry : Name × Node}
    (member : entry ∈ insertEntry name node entries) :
    entry = (name, node) ∨ entry ∈ entries := by
  induction entries with
  | nil => exact Or.inl (mem_singleton.mp member)
  | cons head rest induction =>
    unfold insertEntry at member
    split at member
    · exact mem_cons.mp member
    · split at member
      · rcases mem_cons.mp member with isNew | later
        · exact Or.inl isNew
        · exact Or.inr (mem_cons_of_mem head later)
      · rcases mem_cons.mp member with isHead | later
        · exact Or.inr (isHead ▸ mem_cons_self)
        · rcases induction later with isNew | old
          · exact Or.inl isNew
          · exact Or.inr (mem_cons_of_mem head old)

theorem insertEntry_sorted {name : Name} {node : Node} {entries : List (Name × Node)}
    (sorted : entries.Pairwise (fun first second => first.1 < second.1)) :
    (insertEntry name node entries).Pairwise (fun first second => first.1 < second.1) := by
  induction entries with
  | nil => exact pairwise_singleton _ _
  | cons head rest induction =>
    obtain ⟨headFirst, restSorted⟩ := pairwise_cons.mp sorted
    unfold insertEntry
    split
    · rename_i below
      apply pairwise_cons.mpr
      refine ⟨?_, sorted⟩
      intro entry member
      rcases mem_cons.mp member with isHead | later
      · exact isHead ▸ below
      · exact below.trans (headFirst entry later)
    · rename_i notBelow
      split
      · rename_i same
        apply pairwise_cons.mpr
        refine ⟨?_, restSorted⟩
        intro entry later
        exact same ▸ headFirst entry later
      · rename_i different
        have above : head.1 < name := lt_of_le_of_ne (not_lt.mp notBelow) (Ne.symm different)
        apply pairwise_cons.mpr
        refine ⟨?_, induction restSorted⟩
        intro entry member
        rcases mem_insertEntry member with isNew | later
        · exact isNew ▸ above
        · exact headFirst entry later

theorem filterMap_insertEntry {Result : Type w} {read : Name × Node → Option Result} {name : Name}
    (ignored : ∀ node, read (name, node) = none) (node : Node) (entries : List (Name × Node)) :
    (insertEntry name node entries).filterMap read = entries.filterMap read := by
  induction entries with
  | nil => simp [insertEntry, ignored]
  | cons head rest induction =>
    unfold insertEntry
    split
    · rw [filterMap_cons_none (ignored node)]
    · split
      · rename_i same
        have headIgnored : read head = none := by
          have key := ignored head.2
          rw [same] at key
          exact key
        rw [filterMap_cons_none (ignored node), filterMap_cons_none headIgnored]
      · rw [filterMap_cons, filterMap_cons, induction]

def put (name : Name) (node : Node) : Listing Name Node :=
  { entries := insertEntry name node listing.entries
    sorted := insertEntry_sorted listing.sorted }

def remove (name : Name) : Listing Name Node :=
  { entries := listing.entries.filter (fun entry => entry.1 ≠ name)
    sorted := listing.sorted.sublist filter_sublist }

theorem filterMap_remove {Result : Type w} {read : Name × Node → Option Result}
    {name : Name} (ignored : ∀ node, read (name, node) = none) (listing : Listing Name Node) :
    (listing.remove name).entries.filterMap read = listing.entries.filterMap read := by
  show (listing.entries.filter _).filterMap read = _
  induction listing.entries with
  | nil => rfl
  | cons head rest induction =>
    by_cases same : head.1 = name
    · have headIgnored : read head = none := by
        subst same
        exact ignored head.2
      rw [filter_cons_of_neg (by simpa using same), filterMap_cons_none headIgnored, induction]
    · rw [filter_cons_of_pos (by simpa using same), filterMap_cons, filterMap_cons, induction]

variable (listing : Listing Name Node) (name other : Name)

theorem lookup_insertEntry (node : Node) (entries : List (Name × Node)) :
    (insertEntry name node entries).lookup other =
      if other = name then some node else entries.lookup other := by
  induction entries with
  | nil => exact lookup_cons_ite other (name, node) []
  | cons head rest induction =>
    unfold insertEntry
    split
    · exact lookup_cons_ite other (name, node) (head :: rest)
    · split
      · rename_i same
        rw [lookup_cons_ite, lookup_cons_ite, ← same]
        split <;> rfl
      · rename_i different
        rw [lookup_cons_ite, lookup_cons_ite, induction]
        by_cases atHead : other = head.1
        · simp [atHead, Ne.symm different]
        · simp [atHead]

theorem get?_put (node : Node) : (listing.put name node).get? other =
      if other = name then some node else listing.get? other :=
  lookup_insertEntry name other node listing.entries

theorem get?_remove : (listing.remove name).get? other =
      if other = name then none else listing.get? other :=
  lookup_filter_ne listing.entries name other

theorem insertEntry_of_mem {before after : List (Name × Node)} {name : Name}
    {old : Node} (node : Node) (sorted : (before ++ (name, old) :: after).Pairwise
      (fun first second => first.1 < second.1)) :
    insertEntry name node (before ++ (name, old) :: after) = before ++ (name, node) :: after := by
  induction before with
  | nil => simp [insertEntry]
  | cons head before induction =>
    obtain ⟨headFirst, restSorted⟩ := pairwise_cons.mp sorted
    have below : head.1 < name := headFirst (name, old) (mem_append_right _ mem_cons_self)
    rw [cons_append, insertEntry, if_neg below.asymm,
      if_neg below.ne', induction restSorted, cons_append]

theorem keys_nodup : (listing.entries.map Prod.fst).Nodup := by
  apply Pairwise.map Prod.fst _ listing.sorted
  intro first second below
  exact below.ne

theorem get?_of_mem {listing : Listing Name Node} {name : Name} {node : Node}
    (member : (name, node) ∈ listing.entries) :
    listing.get? name = some node :=
  lookup_of_mem listing.keys_nodup member

def names (listing : Listing Name Node) : Finset Name :=
  (listing.entries.map Prod.fst).toFinset

theorem mem_names {listing : Listing Name Node} {name : Name} :
    name ∈ listing.names ↔ ∃ node, listing.get? name = some node := by
  unfold names get?
  rw [mem_toFinset, ← Option.isSome_iff_exists]
  simp

end Listing

end MatrixSpooll.Library
