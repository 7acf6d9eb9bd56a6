import MatrixSpooll.Asset.RenameChecks

/-!
# Scanning again after a write

A renaming that was cut off is scanned again.  After each write the scan finds
what is left of the plan: a document that was written has nothing to rewrite
any more, a file that was moved is not matched again, and a history that was
saved has no record under the old name.
-/

namespace MatrixSpooll.Asset

open Library List

variable {Bytes : Type} {services : Services}

/-! ## Documents -/

section Documents

variable {Name Node Change : Type}
  {compute : Name × Node → Except Raised Change} {changed : Change → Bool}

theorem rescan_entries {entries : List (Name × Node)} {changes : List Change}
    (related : Forall₂ (fun entry change => compute entry = .ok change)
      entries changes) {change : Change} {rest : List Change}
    (first : changes.filter changed = change :: rest) :
    ∃ before name old after, entries = before ++ (name, old) :: after ∧
      compute (name, old) = .ok change ∧
      ∀ node again, compute (name, node) = .ok again → changed again = false →
        ∃ left, Forall₂ (fun entry change => compute entry = .ok change)
            (before ++ (name, node) :: after) left ∧
          left.filter changed = rest := by
  induction related with
  | nil => cases first
  | @cons entry head entries changes isHead others induction =>
    by_cases changes_here : changed head = true
    · rw [filter_cons_of_pos changes_here] at first
      obtain ⟨rfl, rfl⟩ := cons.inj first
      refine ⟨[], entry.1, entry.2, entries, rfl, isHead, ?_⟩
      intro node again computed settled
      refine ⟨again :: changes, .cons computed others, ?_⟩
      rw [filter_cons_of_neg (by simp [settled])]
    · rw [filter_cons_of_neg changes_here] at first
      obtain ⟨before, name, old, after, rfl, isChange, resumed⟩ := induction first
      refine ⟨entry :: before, name, old, after, rfl, isChange, ?_⟩
      intro node again computed settled
      obtain ⟨left, relatedLeft, isRest⟩ := resumed node again computed settled
      refine ⟨head :: left, .cons isHead relatedLeft, ?_⟩
      rw [filter_cons_of_neg changes_here, isRest]

theorem Finds.after_write [LinearOrder Name] {listing : Listing Name Node}
    {change : Change} {rest : List Change}
    (found : Finds compute changed listing (change :: rest)) :
    ∃ name old, compute (name, old) = .ok change ∧
      ∀ node again, compute (name, node) = .ok again → changed again = false →
        Finds compute changed (listing.put name node) rest := by
  obtain ⟨changes, computed, isFilter⟩ := found
  obtain ⟨before, name, old, after, isEntries, isChange, resumed⟩ :=
    rescan_entries (mapM_eq_ok_iff.mp computed) isFilter.symm
  refine ⟨name, old, isChange, ?_⟩
  intro node again computedAgain settled
  obtain ⟨left, related, isRest⟩ := resumed node again computedAgain settled
  refine ⟨left, mapM_eq_ok_iff.mpr ?_, isRest.symm⟩
  have sorted := listing.sorted
  rw [isEntries] at sorted
  show Forall₂ _ (Listing.insertEntry name node listing.entries) left
  rw [isEntries, Listing.insertEntry_of_mem node sorted]
  exact related

end Documents

/-! ## Files -/

section Moves

variable {runtime : Runtime} {rename : AssetRename} {move : Place × Place}

theorem moveOf_eq_some {directory : Place × Bool} {place : Place}
    (found : moveOf runtime rename directory place = some move) :
    move.1 = place ∧ place.dropLast = directory.1 := by
  unfold moveOf at found
  split at found
  · cases found
  · obtain ⟨inside, found⟩ := Option.ite_none_right_eq_some.mp found
    split at found
    · cases found
    · obtain ⟨_, built⟩ := Option.ite_none_left_eq_some.mp found
      cases built
      exact ⟨rfl, inside⟩

variable {files : Listing Place Bytes}

theorem matchingMoves_source (member : move ∈ matchingMoves runtime rename files) :
    ∃ content, files.get? move.1 = some content := by
  obtain ⟨directory, _, inside⟩ := mem_flatMap.mp member
  obtain ⟨entry, present, found⟩ := mem_filterMap.mp inside
  rw [(moveOf_eq_some found).1]
  exact ⟨entry.2, Listing.get?_of_mem present⟩

theorem matchingMoves_moveFile (unmatched : ∀ directory ∈ migratedDirs rename.assetType,
      moveOf runtime rename directory move.2 = none) :
    matchingMoves runtime rename (moveFile files move) =
      (matchingMoves runtime rename files).filter (fun other => other.1 ≠ move.1) := by
  cases present : files.get? move.1 with
  | none =>
    rw [moveFile_of_missing present]
    refine (filter_eq_self.mpr ?_).symm
    intro other member
    obtain ⟨content, found⟩ := matchingMoves_source member
    simp only [ne_eq, decide_eq_true_eq]
    intro same
    simp [same, present] at found
  | some content =>
    unfold matchingMoves
    rw [filter_flatMap]
    apply flatMap_congr
    intro directory listed
    simp only [moveFile, present]
    have ignored : ∀ node : Bytes, (fun entry : Place × Bytes =>
        moveOf runtime rename directory entry.1) (move.2, node) = none :=
      fun _ => unmatched directory listed
    refine (Listing.filterMap_insertEntry ignored content _).trans ?_
    show (files.entries.filter _).filterMap _ = _
    rw [filterMap_filter, filter_filterMap]
    apply filterMap_congr
    intro entry _
    cases found : moveOf runtime rename directory entry.1 with
    | none => simp
    | some other =>
      have isEntry := (moveOf_eq_some found).1
      by_cases same : entry.1 = move.1 <;>
        simp [isEntry, same, Option.filter]

theorem migratedDirs_distinct (assetType : AssetType) :
    (migratedDirs assetType).Pairwise (fun first second => first.1 ≠ second.1) := by
  cases assetType <;> decide

theorem matchingMoves_sources_nodup (files : Listing Place Bytes) :
    ((matchingMoves runtime rename files).map Prod.fst).Nodup := by
  unfold matchingMoves
  rw [map_flatMap, nodup_flatMap]
  constructor
  · intro directory _
    refine files.keys_nodup.sublist ?_
    induction files.entries with
    | nil => exact .slnil
    | cons entry entries induction =>
      cases found : moveOf runtime rename directory entry.1 with
      | none =>
        simp only [filterMap_cons, found, map_cons]
        exact .cons _ induction
      | some move =>
        simp only [filterMap_cons, found, map_cons, (moveOf_eq_some found).1]
        exact .cons_cons _ induction
  · refine (migratedDirs_distinct rename.assetType).imp ?_
    intro first second different place inFirst inSecond
    obtain ⟨move, listed, rfl⟩ := mem_map.mp inFirst
    obtain ⟨other, otherListed, same⟩ := mem_map.mp inSecond
    obtain ⟨entry, _, found⟩ := mem_filterMap.mp listed
    obtain ⟨otherEntry, _, otherFound⟩ := mem_filterMap.mp otherListed
    obtain ⟨isEntry, inside⟩ := moveOf_eq_some found
    obtain ⟨isOther, otherInside⟩ := moveOf_eq_some otherFound
    apply different
    rw [← inside, ← otherInside, ← isEntry, ← isOther, same]

variable {moves : List (Place × Place)}

theorem checkMoves_ok_iff {present : Place → Bool} {planned : List Place}
    (distinct : planned.Nodup) :
    checkMoves present planned moves = .ok () ↔ (∀ move ∈ moves, present move.2 = false) ∧
        (planned ++ moves.map Prod.snd).Nodup := by
  induction moves generalizing planned with
  | nil => simp [checkMoves, distinct]
  | cons move moves induction =>
    unfold checkMoves
    rw [forall_mem_cons, map_cons]
    split
    case isTrue taken =>
      simp only [reduceCtorEq, false_iff, not_and]
      intro free apart
      rcases taken with again | there
      · exact disjoint_of_nodup_append apart again mem_cons_self
      · simp [free.1] at there
    case isFalse free =>
      simp only [not_or, Bool.not_eq_true] at free
      have distinctNext := Nodup.concat free.1 distinct
      rw [concat_eq_append] at distinctNext
      rw [induction distinctNext, append_assoc]
      simp [free.2]

theorem planAssetFileRenames_ok_iff {folders : List Place} :
    planAssetFileRenames runtime rename files folders = .ok moves ↔
      moves = matchingMoves runtime rename files ∧
        (∀ move ∈ moves, files.get? move.2 = none ∧ move.2 ∉ folders) ∧
        (moves.map Prod.snd).Nodup := by
  have mapped : ∀ checked : Except Raised Unit, checked.map (fun _ =>
      matchingMoves runtime rename files) = .ok moves ↔
        moves = matchingMoves runtime rename files ∧ checked = .ok () := by
    intro checked
    cases checked <;> simp [Except.map, eq_comm]
  simp only [planAssetFileRenames, mapped]
  apply and_congr_right
  intro isMatching
  rw [← isMatching, checkMoves_ok_iff .nil]
  simp

theorem planAssetFileRenames_moveFile {folders : List Place}
    (planned : planAssetFileRenames runtime rename files folders = .ok (move :: moves))
    (unmatched : ∀ directory ∈ migratedDirs rename.assetType,
      moveOf runtime rename directory move.2 = none) :
    planAssetFileRenames runtime rename (moveFile files move) folders = .ok moves := by
  obtain ⟨isMatching, free, distinct⟩ := planAssetFileRenames_ok_iff.mp planned
  have sources : ((move :: moves).map Prod.fst).Nodup :=
    isMatching ▸ matchingMoves_sources_nodup files
  rw [map_cons, nodup_cons] at sources distinct
  refine planAssetFileRenames_ok_iff.mpr ⟨?_, ?_, distinct.2⟩
  · rw [matchingMoves_moveFile unmatched, ← isMatching, filter_cons_of_neg (by simp)]
    refine (filter_eq_self.mpr ?_).symm
    intro other member
    simp only [ne_eq, decide_eq_true_eq]
    intro same
    exact sources.1 (mem_map.mpr ⟨other, member, same⟩)
  · intro other member
    obtain ⟨empty, noFolder⟩ := free other (mem_cons_of_mem _ member)
    refine ⟨?_, noFolder⟩
    have elsewhere : other.2 ≠ move.2 := by
      intro same
      exact distinct.1 (mem_map.mpr ⟨other, member, same⟩)
    cases present : files.get? move.1 with
    | none =>
      rw [moveFile_of_missing present]
      exact empty
    | some content =>
      rw [get?_moveFile present, if_neg elsewhere, empty]
      simp

end Moves

/-! ## Version history -/

section History

variable {runtime : Runtime} {rename : AssetRename} {folders : List Place}
  {stored : Option Fields} {history : HistoryRename}

theorem bucketOf_put (assetType : AssetType) (project bucket : Fields) :
    bucketOf (Json.put project assetType.spec.bucketKey (.dict bucket)) assetType = bucket := by
  simp [bucketOf, objectOf, Json.get_put]

theorem renameResource_eq_some (planned : renameResource runtime rename folders stored =
      .ok (some history)) :
    (∃ versions : List Json, history.moves = versions.filterMap
      (snapshotMove runtime rename folders)) ∧
    ∃ bucket, history.data = Json.put (stored.getD []) rename.assetType.spec.bucketKey
      (.dict (rekeyed runtime bucket rename.oldName rename.newName)) := by
  simp only [renameResource] at planned
  repeat' split at planned
  all_goals cases planned
  exact ⟨⟨_, rfl⟩, _, rfl⟩

theorem planAssetFileRenames_snapshots {Bytes : Type}
    {files : Listing Place Bytes} {done : List (Place × Place)}
    (planned : renameResource runtime rename folders stored =
      .ok (some history)) (inside : ∀ move ∈ done, move ∈ history.moves)
    (none : planAssetFileRenames runtime rename files folders = .ok []) :
    planAssetFileRenames runtime rename (moveFiles files done) folders = .ok [] := by
  obtain ⟨⟨versions, isMoves⟩, _⟩ := renameResource_eq_some planned
  have nothing : matchingMoves runtime rename files = [] :=
    (planAssetFileRenames_ok_iff.mp none).1.symm
  clear none
  refine planAssetFileRenames_ok_iff.mpr ⟨?_, by simp, .nil⟩
  induction done generalizing files with
  | nil => exact nothing.symm
  | cons move done induction =>
    obtain ⟨here, later⟩ := forall_mem_cons.mp inside
    rw [isMoves] at here
    obtain ⟨version, _, found⟩ := mem_filterMap.mp here
    refine induction later ?_
    rw [matchingMoves_moveFile, nothing, filter_nil]
    intro directory listed
    unfold snapshotMove at found
    repeat' split at found
    all_goals cases found
    -- snapshots are kept outside the directories that are scanned
    have outside : ["versions", rename.assetType.spec.bucketKey] ≠ directory.1 := by
      intro same
      simp only [migratedDirs, mem_cons, not_mem_nil, or_false] at listed
      rcases listed with rfl | rfl | rfl <;>
        cases kind : rename.assetType <;>
        simp [kind, AssetType.spec] at same
    simp [moveOf, outside]

end History

/-! ## The claim -/

theorem assetSheetKey_of_same {runtime : Runtime} {assetType : AssetType}
    {name other : String} {key : ArtifactKey}
    (isKey : assetSheetKey runtime assetType name = .ok key)
    (same : normalizeAssetName runtime other = normalizeAssetName runtime name) :
    assetSheetKey runtime assetType (normalizeAssetName runtime other) = .ok key := by
  have compared : assetNameComparisonKey runtime (normalizeAssetName runtime other) =
        assetNameComparisonKey runtime name := by
    rw [assetNameComparisonKey_normalize, assetNameComparisonKey_eq,
      assetNameComparisonKey_eq, same]
  unfold assetSheetKey at isKey ⊢
  rw [compared]
  split at isKey
  · cases isKey
  · split at isKey
    · cases isKey
    case isFalse nonempty =>
      have named : normalizeAssetName runtime other ≠ "" := by
        intro empty
        apply nonempty
        rw [assetNameComparisonKey_eq, ← same, empty]
        rfl
      rw [if_neg named, if_neg nonempty]
      exact isKey

end MatrixSpooll.Asset
