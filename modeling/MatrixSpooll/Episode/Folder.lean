import MatrixSpooll.Episode.Reset

/-!
# The source folder under planning and reset

Planner and reset write derived files, remove them, or move them to names with
an underscore.  None of these names is a source, so the source texts stay what
they are; and no derived file appears for a number nothing was written for.
-/

namespace MatrixSpooll.Episode

open Library List

theorem episodeFileNum_derivedFileName (num : Nat) :
    episodeFileNum (derivedFileName num) = some num := by
  have chars : (derivedFileName num).toList =
      "episode_".toList ++ (Nat.toDigits 10 num ++ ".txt".toList) := by
    have digits : (toString (num : Int)).toList = Nat.toDigits 10 num := by
      show (toString num).toList = _
      rw [Nat.toString_eq_repr, Nat.toList_repr]
    rw [derivedFileName, String.toList_append, String.toList_append, digits, append_assoc]
  have afterPrefix : (derivedFileName num).toList.dropPrefix?
      "episode_".toList = some (Nat.toDigits 10 num ++ ".txt".toList) :=
    dropPrefix?_eq_some_iff.mpr ⟨_, chars, beq_self_eq_true _⟩
  have beforeSuffix : (Nat.toDigits 10 num ++ ".txt".toList).dropSuffix?
      ".txt".toList = some (Nat.toDigits 10 num) :=
    dropSuffix?_eq_some_iff.mpr ⟨_, rfl, beq_self_eq_true _⟩
  have allDigits : Nat.toDigits 10 num ≠ [] ∧ (Nat.toDigits 10 num).all Char.isDigit = true := by
    refine ⟨Nat.toDigits_ne_nil, all_eq_true.mpr ?_⟩
    intro char member
    exact Nat.isDigit_of_mem_toDigits (by omega) (by omega) member
  simp only [episodeFileNum, afterPrefix, beforeSuffix]
  rw [if_pos allDigits, Nat.ofDigitChars_toDigits (by omega) (by omega)]

variable {name : String}

theorem episodeFileNum_of_isHidden
    (hidden : isHidden name = true) : episodeFileNum name = none := by
  cases front : name.toList.dropPrefix? "episode_".toList with
  | none => simp only [episodeFileNum, front]
  | some rest =>
    obtain ⟨start, chars, same⟩ := dropPrefix?_eq_some_iff.mp front
    rw [eq_of_beq same] at chars
    have visible : isHidden name = false := by
      simp only [isHidden, chars]
      rfl
    rw [visible] at hidden
    cases hidden

/-- A name that is never a source. -/
def OffSource (name : String) : Prop :=
  (episodeFileNum name).isSome = true ∨ isHidden name = true

theorem sourceDoc_offSource (off : OffSource name)
    (host : Host) (node : FileNode) : sourceDoc host (name, node) = none := by
  unfold sourceDoc
  split
  · rfl
  · rename_i visible
    rcases off with episode | hidden
    · simp [episode]
    · simp [hidden] at visible

/-- `after` has the sources of `before`. -/
structure SameSources (host : Host) (before after : SourceFolder) : Prop where
  sources : discoverSources host after = discoverSources host before
  isLink : after.isLink = before.isLink

namespace SameSources

variable {host : Host} {first second third : SourceFolder} (folder : SourceFolder)

theorem refl : SameSources host folder folder :=
  { sources := rfl
    isLink := rfl }

theorem trans (front : SameSources host first second)
    (back : SameSources host second third) : SameSources host first third :=
  { sources := back.sources.trans front.sources
    isLink := back.isLink.trans front.isLink }

theorem unlink {name : String} (off : OffSource name) :
    SameSources host folder (folder.unlink name) :=
  { sources := Listing.filterMap_remove (sourceDoc_offSource off host) folder.listing
    isLink := rfl }

theorem put {name : String} (off : OffSource name) (node : FileNode) : SameSources host folder
      { folder with listing := folder.listing.put name node } :=
  { sources := Listing.filterMap_insertEntry (sourceDoc_offSource off host)
      node folder.listing.entries
    isLink := rfl }

theorem writeAll {folder : SourceFolder} {writes : List (String × Text)}
    (off : ∀ write ∈ writes, OffSource write.1) :
    SameSources host folder (folder.writeAll writes).1 := by
  induction writes generalizing folder with
  | nil => exact refl folder
  | cons write writes induction =>
    obtain ⟨name, content⟩ := write
    have offHead : OffSource name := off (name, content) mem_cons_self
    have offTail : ∀ write ∈ writes, OffSource write.1 :=
      fun write member => off write (mem_cons_of_mem _ member)
    unfold SourceFolder.writeAll SourceFolder.writeText
    split
    · exact refl folder
    · rename_i written isWritten
      split at isWritten <;> cases isWritten
      exact (put folder offHead (.text content)).trans (induction offTail)

theorem unlinkRemaining : SameSources host folder folder.unlinkRemaining := by
  unfold SourceFolder.unlinkRemaining
  split
  · exact unlink folder (Or.inr rfl)
  · exact refl folder

theorem foldl {Item : Type u} {turn : SourceFolder → Item → SourceFolder}
    {items : List Item} {folder : SourceFolder} (same : ∀ item ∈ items, ∀ current,
      SameSources host current (turn current item)) :
    SameSources host folder (items.foldl turn folder) := by
  induction items generalizing folder with
  | nil => exact refl folder
  | cons item items induction =>
    apply (same item mem_cons_self folder).trans
    exact induction (fun other member => same other (mem_cons_of_mem item member))

end SameSources

variable {entry : String × FileNode} {num : Nat}

theorem aliasNum_eq_some (known : aliasNum entry = some num) :
    episodeFileNum entry.1 = some num := by
  unfold aliasNum at known
  split at known
  · exact known
  · cases known

variable {folder : SourceFolder}

theorem episodeFileNum_of_mem_aliases (member : entry ∈ episodeFileAliases folder num) :
    episodeFileNum entry.1 = some num := by
  have holds := (mem_filter.mp member).2
  exact aliasNum_eq_some (of_decide_eq_true holds)

variable {host : Host}

theorem unlinkLeftovers_sameSources (folder : SourceFolder) (keep : List Int) :
    SameSources host folder (folder.unlinkLeftovers keep) := by
  apply SameSources.foldl
  intro num _ current
  split
  · rename_i name picked
    obtain ⟨entry, found, nameEq⟩ := Option.map_eq_some_iff.mp picked
    subst nameEq
    apply SameSources.unlink
    left
    rw [episodeFileNum_of_mem_aliases (mem_of_find?_eq_some found)]
    rfl
  · exact SameSources.refl current

theorem mem_aliasPaths {num : Int} : name ∈ aliasPaths folder num ↔ ∃ node index,
      (name, node) ∈ folder.listing.entries ∧
      aliasNum (name, node) = some index ∧ num = (index : Nat) := by
  unfold aliasPaths
  constructor
  · intro member
    split at member
    · obtain ⟨entry, isAlias, nameEq⟩ := mem_map.mp member
      obtain ⟨listed, known⟩ := mem_filter.mp isAlias
      subst nameEq
      exact ⟨entry.2, num.toNat, listed, of_decide_eq_true known, by omega⟩
    · cases member
  · intro described
    obtain ⟨node, index, listed, known, isNum⟩ := described
    rw [isNum, if_pos (by omega)]
    exact mem_map.mpr ⟨(name, node), mem_filter.mpr ⟨listed, decide_eq_true known⟩, rfl⟩

theorem isHidden_archivePath (folder : SourceFolder) (name : String) :
    isHidden (archivePath folder name) = true := by
  have candidate : ∀ index, isHidden (archiveCandidate name index) = true := by
    intro index
    unfold archiveCandidate
    split <;> simp [isHidden]
  exact candidate _

theorem applyFiles_sameSources {plan : ResetPlan} (deletes : ∀ name ∈ plan.deletes, OffSource name)
    (archives : ∀ name ∈ plan.archives, OffSource name) :
    SameSources host folder (applyFiles folder plan) := by
  have deleted : SameSources host folder (folder.unlinkEach plan.deletes) := by
    apply SameSources.foldl
    intro name member current
    exact SameSources.unlink current (deletes name member)
  have archived : SameSources host (folder.unlinkEach plan.deletes)
      ((folder.unlinkEach plan.deletes).renameEach (archiveTargets folder plan)) := by
    apply SameSources.foldl
    intro pair member current
    obtain ⟨name, listed, pairEq⟩ := mem_map.mp member
    subst pairEq
    unfold SourceFolder.rename
    split
    · exact (SameSources.unlink current (archives name listed)).trans
        (SameSources.put _ (Or.inr (isHidden_archivePath folder name)) _)
    · exact SameSources.refl current
  exact (deleted.trans archived).trans (SameSources.unlinkRemaining _)

theorem scan_offSource {around : Surroundings} {project : Project} {fromEpisode : Int} :
    (∀ name ∈ (scan host around folder project fromEpisode).deletes, OffSource name) ∧
    ∀ name ∈ (scan host around folder project fromEpisode).archives, OffSource name := by
  constructor
  all_goals
    intro name member
    obtain ⟨num, _, isPath⟩ := mem_flatMap.mp member
    obtain ⟨node, index, _, known, _⟩ := mem_aliasPaths.mp isPath
    left
    rw [aliasNum_eq_some known]
    rfl

/-- A readable derived file of the number. -/
def HasFile (folder : SourceFolder) (num : Nat) : Prop :=
  ∃ entry ∈ folder.listing.entries, episodeFileNum entry.1 = some num ∧ entry.2.isFile = true

theorem mem_discoverEpisodeFiles : num ∈ discoverEpisodeFiles folder ↔ HasFile folder num := by
  constructor
  · intro member
    have picked := (mem_filter.mp member).2
    obtain ⟨name, isPicked⟩ := Option.isSome_iff_exists.mp picked
    obtain ⟨entry, found, _⟩ := Option.map_eq_some_iff.mp isPicked
    have isAlias := mem_of_find?_eq_some found
    have readable := find?_some found
    exact ⟨entry, mem_of_mem_filter isAlias, episodeFileNum_of_mem_aliases isAlias, readable⟩
  · intro present
    obtain ⟨entry, listed, named, readable⟩ := present
    have known : aliasNum entry = some num := by
      simp [aliasNum, readable, named]
    have isAlias : entry ∈ episodeFileAliases folder num :=
      mem_filter.mpr ⟨listed, decide_eq_true known⟩
    apply mem_filter.mpr
    constructor
    · exact mem_dedup.mpr (mem_filterMap.mpr ⟨entry, listed, known⟩)
    · unfold episodeFile
      rw [Option.isSome_map]
      exact find?_isSome.mpr ⟨entry, isAlias, readable⟩

theorem HasFile.of_subset {before after : SourceFolder}
    (fewer : ∀ entry ∈ after.listing.entries, entry ∈ before.listing.entries)
    (present : HasFile after num) : HasFile before num := by
  obtain ⟨entry, listed, named, readable⟩ := present
  exact ⟨entry, fewer entry listed, named, readable⟩

theorem unlink_subset : ∀ entry ∈ (folder.unlink name).listing.entries,
      entry ∈ folder.listing.entries :=
  fun _ member => mem_of_mem_filter member

theorem unlinkRemaining_subset : ∀ entry ∈ folder.unlinkRemaining.listing.entries,
      entry ∈ folder.listing.entries := by
  unfold SourceFolder.unlinkRemaining
  split
  · exact unlink_subset
  · exact fun _ member => member

theorem unlinkLeftovers_subset {keep : List Int} :
    ∀ entry ∈ (folder.unlinkLeftovers keep).listing.entries, entry ∈ folder.listing.entries := by
  unfold SourceFolder.unlinkLeftovers
  apply foldl_relates (fun before after : SourceFolder =>
    ∀ entry ∈ after.listing.entries, entry ∈ before.listing.entries)
  · exact fun _ _ member => member
  · intro first second third front back entry member
    exact front entry (back entry member)
  · intro current num
    split
    · exact unlink_subset
    · exact fun _ member => member

theorem HasFile.of_writeAll {writes : List (String × Text)}
    (present : HasFile (folder.writeAll writes).1 num) :
    HasFile folder num ∨ ∃ write ∈ writes, episodeFileNum write.1 = some num := by
  induction writes generalizing folder with
  | nil => exact Or.inl present
  | cons write writes induction =>
    obtain ⟨name, content⟩ := write
    unfold SourceFolder.writeAll SourceFolder.writeText at present
    split at present
    · exact Or.inl present
    · rename_i written isWritten
      split at isWritten <;> cases isWritten
      rcases induction present with earlier | ⟨other, member, named⟩
      · obtain ⟨entry, listed, named, readable⟩ := earlier
        rcases Listing.mem_insertEntry listed with isNew | old
        · subst isNew
          exact Or.inr ⟨(name, content), mem_cons_self, named⟩
        · exact Or.inl ⟨entry, old, named, readable⟩
      · exact Or.inr ⟨other, mem_cons_of_mem _ member, named⟩

theorem mem_unlinkEach {names : List String}
    (member : entry ∈ (folder.unlinkEach names).listing.entries) :
    entry ∈ folder.listing.entries ∧ entry.1 ∉ names := by
  induction names generalizing folder with
  | nil => exact ⟨member, not_mem_nil⟩
  | cons name names induction =>
    obtain ⟨listed, notLater⟩ := induction member
    obtain ⟨old, different⟩ := mem_filter.mp listed
    refine ⟨old, ?_⟩
    intro removed
    rcases mem_cons.mp removed with same | later
    · exact absurd same (of_decide_eq_true different)
    · exact notLater later

theorem mem_renameEach {targets : List (String × String)}
    (hidden : ∀ pair ∈ targets, isHidden pair.2 = true) (visible : isHidden entry.1 = false)
    (member : entry ∈ (folder.renameEach targets).listing.entries) :
    entry ∈ folder.listing.entries ∧ entry.1 ∉ targets.map Prod.fst := by
  induction targets generalizing folder with
  | nil => exact ⟨member, not_mem_nil⟩
  | cons pair targets induction =>
    obtain ⟨listed, notLater⟩ := induction
      (fun other later => hidden other (mem_cons_of_mem pair later))
      member
    -- a visible entry after a rename was there before, under another name
    have before : entry ∈ folder.listing.entries ∧ entry.1 ≠ pair.1 := by
      dsimp only [SourceFolder.rename] at listed
      split at listed
      · rcases Listing.mem_insertEntry listed with isNew | old
        · rw [isNew, hidden pair mem_cons_self] at visible
          cases visible
        · obtain ⟨listed, different⟩ := mem_filter.mp old
          exact ⟨listed, of_decide_eq_true different⟩
      · rename_i missing
        refine ⟨listed, ?_⟩
        intro same
        have absent := lookup_eq_none_iff.mp missing entry listed
        rw [same] at absent
        simp at absent
    refine ⟨before.1, ?_⟩
    intro moved
    rcases mem_cons.mp moved with same | later
    · exact before.2 same
    · exact notLater later

theorem mem_applyFiles {plan : ResetPlan} (named : episodeFileNum entry.1 = some num)
    (listed : entry ∈ (applyFiles folder plan).listing.entries) :
    entry ∈ folder.listing.entries ∧ entry.1 ∉ plan.deletes ∧ entry.1 ∉ plan.archives := by
  have visible : isHidden entry.1 = false := by
    cases hidden : isHidden entry.1 with
    | false => rfl
    | true =>
      rw [episodeFileNum_of_isHidden hidden] at named
      cases named
  have targetsHidden : ∀ pair ∈ archiveTargets folder plan, isHidden pair.2 = true := by
    intro pair member
    obtain ⟨name, _, pairEq⟩ := mem_map.mp member
    subst pairEq
    exact isHidden_archivePath folder name
  obtain ⟨kept, notArchived⟩ := mem_renameEach targetsHidden visible
    (unlinkRemaining_subset entry listed)
  obtain ⟨old, notDeleted⟩ := mem_unlinkEach kept
  refine ⟨old, notDeleted, ?_⟩
  intro archived
  apply notArchived
  exact mem_map.mpr ⟨(entry.1, archivePath folder entry.1),
      mem_map.mpr ⟨entry.1, archived, rfl⟩, rfl⟩

section Scan

variable {around : Surroundings} {project : Project} {fromEpisode : Int}

theorem mem_scan (host : Host) (around : Surroundings) (project : Project)
    (listed : entry ∈ folder.listing.entries) (known : aliasNum entry = some num)
    (inside : inScope fromEpisode num = true) :
    if canRecreate (numberedEntries host project) num then
      entry.1 ∈ (scan host around folder project fromEpisode).deletes
    else entry.1 ∈ (scan host around folder project fromEpisode).archives := by
  have isPath : entry.1 ∈ aliasPaths folder num :=
    mem_aliasPaths.mpr ⟨entry.2, num, listed, known, rfl⟩
  have inAliases : num ∈ aliasNums folder :=
    mem_dedup.mpr (mem_filterMap.mpr ⟨entry, listed, known⟩)
  have scanned : ∀ nums : List Int, (num : Int) ∈ nums →
      (num : Int) ∈ (nums.dedup.insertionSort
        (fun first second => first ≤ second)).filter (inScope fromEpisode) := by
    intro nums member
    apply mem_filter.mpr
    refine ⟨?_, inside⟩
    rw [mem_insertionSort]
    exact mem_dedup.mpr member
  have inNums := scanned ((numberedEntries host project).map Prod.fst ++
      (aliasNums folder).map (fun num : Nat => (num : Int)) ++
      around.productNums.map (fun num : Nat => (num : Int)))
    (mem_append_left _ (mem_append_right _ (mem_map.mpr ⟨num, inAliases, rfl⟩)))
  split
  all_goals
    rename_i recreatable
    refine mem_flatMap.mpr ⟨num, mem_filter.mpr ⟨inNums, ?_⟩, isPath⟩
    simpa using recreatable

theorem HasFile.of_reset (present : HasFile
      (applyFiles folder (scan host around folder project fromEpisode)) num) :
    HasFile folder num ∧ inScope fromEpisode num = false := by
  obtain ⟨entry, later, named, readable⟩ := present
  obtain ⟨listed, notDeleted, notArchived⟩ := mem_applyFiles named later
  refine ⟨⟨entry, listed, named, readable⟩, ?_⟩
  apply Bool.eq_false_iff.mpr
  intro inside
  have known : aliasNum entry = some num := by
    simp [aliasNum, readable, named]
  have onList := mem_scan host around project listed known inside
  split at onList
  · exact notDeleted onList
  · exact notArchived onList

end Scan

end MatrixSpooll.Episode
