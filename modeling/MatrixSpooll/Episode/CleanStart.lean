import MatrixSpooll.Episode.Coverage
import MatrixSpooll.Library.Moves

/-!
# Back to a clean start

A full reset is the way out of any damage: it checks nothing about the ledger.
Every derived file goes, and one that the ledger cannot prove to be written
again is kept under a name that was free.
-/

namespace MatrixSpooll.Episode

open Library List

variable {host : Host} {around : Surroundings} {folder : SourceFolder}
  {project : Project} {name : String}

/-! ## Names for what is kept -/

/-- What stands between the name and the suffix of a candidate. -/
def archiveMark (index : Nat) : List Char :=
  if index = 0 then [] else '.' :: Nat.toDigits 10 index

theorem toList_archiveCandidate (name : String) (index : Nat) :
    (archiveCandidate name index).toList =
      '_' :: (name.toList ++ archiveMark index) ++ ".bak".toList := by
  unfold archiveCandidate archiveMark
  split
  · simp
  · simp [Nat.toString_eq_repr, Nat.toList_repr]

theorem archiveMark_injective : Function.Injective archiveMark := by
  intro first second same
  unfold archiveMark at same
  split at same <;> split at same
  · omega
  · cases same
  · cases same
  · have digits := congrArg (Nat.ofDigitChars 10 · 0) (cons.inj same).2
    simpa [Nat.ofDigitChars_toDigits] using digits

theorem archivePath_fresh (folder : SourceFolder) (name : String) :
    folder.listing.get? (archivePath folder name) = none := by
  unfold archivePath
  cases found : (range (folder.listing.entries.length + 1)).find? (fun index =>
        !(folder.listing.get? (archiveCandidate name index)).isSome) with
  | some index =>
    simp only [found]
    simpa using find?_some found
  | none =>
    -- otherwise the candidates would be more than the entries
    exfalso
    have taken : ∀ index ∈ Finset.range (folder.listing.entries.length + 1),
        archiveCandidate name index ∈ folder.listing.names := by
      intro index inside
      have isTaken := find?_eq_none.mp found index (mem_range.mpr (Finset.mem_range.mp inside))
      apply Listing.mem_names.mpr
      exact Option.ne_none_iff_exists'.mp (by simpa using isTaken)
    have injective : Function.Injective (archiveCandidate name) := by
      intro first second same
      have chars := congrArg String.toList same
      rw [toList_archiveCandidate, toList_archiveCandidate] at chars
      simpa [archiveMark_injective.eq_iff] using chars
    have more := Finset.card_le_card_of_injOn _ taken injective.injOn
    have few := toFinset_card_le (folder.listing.entries.map Prod.fst)
    rw [Finset.card_range] at more
    rw [length_map] at few
    exact absurd (more.trans few) (by omega)

theorem ends_of_episodeFileNum {num : Nat} (named : episodeFileNum name = some num) :
    name.toList.getLast? = some 't' := by
  unfold episodeFileNum at named
  repeat' split at named
  all_goals cases named
  rename_i rest front _ digits back _
  obtain ⟨start, chars, _⟩ := dropPrefix?_eq_some_iff.mp front
  obtain ⟨ending, restChars, isEnding⟩ := dropSuffix?_eq_some_iff.mp back
  rw [chars, restChars, eq_of_beq isEnding]
  simp

theorem eq_of_archivePath {other : String} (ends : name.toList.getLast? = some 't')
    (otherEnds : other.toList.getLast? = some 't')
    (same : archivePath folder name = archivePath folder other) :
    name = other := by
  have noLetter : ∀ index, 't' ∉ archiveMark index := by
    intro index member
    unfold archiveMark at member
    split at member
    · cases member
    · rcases mem_cons.mp member with isDot | isDigit
      · cases isDot
      · have digit := Nat.isDigit_of_mem_toDigits (by omega) (by omega) isDigit
        cases digit
  have nothing : ∀ {front rest more : List Char} {index : Nat},
      (front ++ rest).getLast? = some 't' →
      archiveMark index = rest ++ more → rest = [] := by
    intro front rest more index ends isMark
    by_contra nonempty
    rw [getLast?_append_of_ne_nil _ nonempty] at ends
    apply noLetter index
    rw [isMark]
    exact mem_append_left _ (mem_of_getLast? ends)
  have chars := congrArg String.toList same
  unfold archivePath at chars
  rw [toList_archiveCandidate, toList_archiveCandidate] at chars
  have marked := (cons.inj (append_cancel_right chars)).2
  rcases append_eq_append_iff.mp marked with
    ⟨rest, isOther, isMark⟩ | ⟨rest, isName, isMark⟩
  · rw [isOther] at otherEnds
    rw [nothing otherEnds isMark, append_nil] at isOther
    exact String.toList_inj.mp isOther.symm
  · rw [isName] at ends
    rw [nothing ends isMark, append_nil] at isName
    exact String.toList_inj.mp isName

/-! ## What the reset does to the folder -/

section Files

variable {fromEpisode : Int}

theorem of_mem_flatMap {nums : List Int} {test : Int → Bool}
    (member : name ∈ (nums.filter test).flatMap (aliasPaths folder)) :
    ∃ node, ∃ index : Nat, (name, node) ∈ folder.listing.entries ∧
      episodeFileNum name = some index ∧ test index = true := by
  obtain ⟨num, isNum, isPath⟩ := mem_flatMap.mp member
  obtain ⟨node, index, listed, known, same⟩ := mem_aliasPaths.mp isPath
  subst same
  exact ⟨node, index, listed, aliasNum_eq_some known, (mem_filter.mp isNum).2⟩

theorem nodup_archives : (scan host around folder project fromEpisode).archives.Nodup := by
  apply nodup_flatMap.mpr
  constructor
  · intro num _
    unfold aliasPaths
    split
    · exact folder.listing.keys_nodup.sublist (filter_sublist.map Prod.fst)
    · exact nodup_nil
  · refine Pairwise.imp ?_ (((perm_insertionSort _ _).nodup_iff.mpr
      (nodup_dedup _)).filter _ |>.filter _)
    intro first second different name isFirst isSecond
    obtain ⟨_, _, _, known, isNum⟩ := mem_aliasPaths.mp isFirst
    obtain ⟨_, _, _, otherKnown, isOther⟩ := mem_aliasPaths.mp isSecond
    have named : episodeFileNum name = some _ := aliasNum_eq_some known
    cases named.symm.trans (aliasNum_eq_some otherKnown)
    exact different (isNum.trans isOther.symm)

theorem archiveTargets_apart : (archiveTargets folder
        (scan host around folder project fromEpisode)).Pairwise
      (fun first second => first.1 ≠ second.1 ∧ first.2 ≠ second.2) ∧
    ∀ first ∈ archiveTargets folder (scan host around folder project fromEpisode),
      ∀ second ∈ archiveTargets folder (scan host around folder project fromEpisode),
      first.2 ≠ second.1 := by
  unfold archiveTargets
  constructor
  · apply pairwise_map.mpr
    apply Pairwise.imp_of_mem _ nodup_archives
    intro first second isFirst isSecond different
    obtain ⟨_, _, _, named, _⟩ := of_mem_flatMap isFirst
    obtain ⟨_, _, _, otherNamed, _⟩ := of_mem_flatMap isSecond
    refine ⟨different, ?_⟩
    intro same
    exact different (eq_of_archivePath (ends_of_episodeFileNum named)
      (ends_of_episodeFileNum otherNamed) same)
  · intro first isFirst second isSecond same
    obtain ⟨name, _, firstEq⟩ := mem_map.mp isFirst
    obtain ⟨other, isArchived, secondEq⟩ := mem_map.mp isSecond
    subst firstEq secondEq
    obtain ⟨node, _, listed, _⟩ := of_mem_flatMap isArchived
    have fresh := archivePath_fresh folder name
    rw [show archivePath folder name = other from same, Listing.get?_of_mem listed] at fresh
    cases fresh

theorem get?_unlinkEach {names : List String} (kept : name ∉ names) :
    (folder.unlinkEach names).listing.get? name = folder.listing.get? name := by
  induction names generalizing folder with
  | nil => rfl
  | cons first names induction =>
    obtain ⟨different, later⟩ := ne_and_not_mem_of_not_mem_cons kept
    refine (induction later).trans ?_
    exact (Listing.get?_remove _ _ _).trans (if_neg different)

theorem listing_renameEach {targets : List (String × String)} :
    (folder.renameEach targets).listing = moveFiles folder.listing targets := by
  induction targets generalizing folder with
  | nil => rfl
  | cons pair targets induction =>
    refine induction.trans (congrArg (moveFiles · targets) ?_)
    show (folder.rename pair.1 pair.2).listing = moveFile folder.listing pair
    unfold SourceFolder.rename moveFile
    cases folder.listing.get? pair.1 <;> rfl

theorem get?_archived {node : FileNode} (listed : (name, node) ∈ folder.listing.entries)
    (isArchived : name ∈ (scan host around folder project fromEpisode).archives) :
    (applyFiles folder (scan host around folder project
      fromEpisode)).listing.get? (archivePath folder name) = some node := by
  have notDeleted : name ∉ (scan host around folder project fromEpisode).deletes := by
    intro isDeleted
    obtain ⟨_, _, _, named, kept⟩ := of_mem_flatMap isArchived
    obtain ⟨_, _, _, sameNamed, recreated⟩ := of_mem_flatMap isDeleted
    cases named.symm.trans sameNamed
    rw [recreated] at kept
    cases kept
  have notRemaining : archivePath folder name ≠ "_remaining.txt" := by
    intro same
    have chars : (archiveCandidate name _).toList.getLast? = "_remaining.txt".toList.getLast? :=
      congrArg (fun text => text.toList.getLast?) same
    rw [toList_archiveCandidate, getLast?_append_of_ne_nil _ (by decide)] at chars
    simp at chars
  have moved := get?_moveFiles_target archiveTargets_apart.1
    archiveTargets_apart.2 (mem_map.mpr ⟨name, isArchived, rfl⟩)
    ((get?_unlinkEach notDeleted).trans (Listing.get?_of_mem listed))
  unfold applyFiles SourceFolder.unlinkRemaining
  rw [listing_renameEach]
  split
  · refine (Listing.get?_remove _ _ _).trans ((if_neg notRemaining).trans ?_)
    rw [listing_renameEach]
    exact moved
  · rw [listing_renameEach]
    exact moved

end Files

/-! ## The whole call -/

/-- The ledger has the number, and every entry of the number says where its
text is. -/
def RecordedInFull (host : Host) (project : Project) (num : Int) : Prop :=
  (∃ entry ∈ rawEpisodes project, entryNum host entry = some num) ∧
  ∀ entry ∈ rawEpisodes project, entryNum host entry = some num →
    (parseSourceRange entry).isSome = true

theorem recordedInFull_of_canRecreate {num : Int}
    (recreated : canRecreate (numberedEntries host project) num = true) :
    RecordedInFull host project num := by
  have numbered : ∀ fields, fields ∈ ((numberedEntries host project).filter
        (fun entry => entry.1 = num)).map Prod.snd ↔
      .dict fields ∈ rawEpisodes project ∧ entryNum host (.dict fields) = some num := by
    intro fields
    simp only [numberedEntries, mem_map, mem_filter, mem_filterMap, decide_eq_true_eq]
    constructor
    · intro described
      obtain ⟨_, ⟨⟨entry, listed, isPair⟩, isNum⟩, isFields⟩ := described
      split at isPair
      · obtain ⟨_, known, rfl⟩ := Option.map_eq_some_iff.mp isPair
        cases isNum
        cases isFields
        exact ⟨listed, known⟩
      · cases isPair
    · intro described
      exact ⟨(num, fields), ⟨⟨_, described.1, by simp [described.2]⟩, rfl⟩, rfl⟩
  unfold canRecreate duplicates at recreated
  split at recreated
  · cases recreated
  · rename_i nonempty
    constructor
    · obtain ⟨fields, member⟩ := exists_mem_of_ne_nil _ nonempty
      exact ⟨.dict fields, (numbered fields).mp member⟩
    · intro entry listed isNum
      cases entry with
      | dict fields =>
        exact all_eq_true.mp recreated fields ((numbered fields).mpr ⟨listed, isNum⟩)
      | _ => cases isNum

theorem resetEpisodePlanning_eq (around : Surroundings) {fromEpisode : Int}
    {cursor : Option (String × Int)} (positive : 1 ≤ fromEpisode) (notLink : folder.isLink = false)
    (found : resetCursor host (discoverSources host folder) project fromEpisode = .ok cursor) :
    ∃ outcome, resetEpisodePlanning host around folder project fromEpisode true =
        .ok (.done outcome) ∧
      outcome.project = resetLedger host project fromEpisode cursor ∧
      outcome.folder = applyFiles folder (scan host around folder project fromEpisode) ∧
      outcome.result.deletedFiles = (scan host around folder project fromEpisode).deletes ∧
      outcome.result.archivedFiles = archiveTargets folder
        (scan host around folder project fromEpisode) := by
  unfold resetEpisodePlanning readReset commitReset
  simp [require, positive, found, notLink, bind, Except.bind, pure, Except.pure]

/-- What a full reset leaves: an empty ledger that stays empty when orphans
are registered, and no derived file.  One that is not deleted is under a name
of its own that was free. -/
structure CleanStart (host : Host) (folder : SourceFolder) (project : Project)
    (outcome : ResetOutcome) : Prop where
  ledger : EmptyLedger outcome.project
  registered : ∀ later, EmptyLedger (registerOrphanEpisodeEntries host later
    outcome.folder outcome.project)
  removed : ∀ name node num, (name, node) ∈ folder.listing.entries →
    aliasNum (name, node) = some num →
    outcome.folder.listing.get? name = none ∧
      ((∃ target, (name, target) ∈ outcome.result.archivedFiles ∧
          folder.listing.get? target = none ∧
          outcome.folder.listing.get? target = some node) ∨
        name ∈ outcome.result.deletedFiles ∧ RecordedInFull host project num)
  distinct : (outcome.result.archivedFiles.map Prod.snd).Nodup

/-- Whatever the ledger and the folder hold, a confirmed full reset goes
through and gets back to a clean start. -/
theorem full_reset_cleans (host : Host) (around : Surroundings)
    (folder : SourceFolder) (project : Project) (notLink : folder.isLink = false) :
    ∃ outcome, resetEpisodePlanning host around folder project 1 true =
      .ok (.done outcome) ∧ CleanStart host folder project outcome := by
  obtain ⟨outcome, done, projectEq, folderEq, deletedEq, archivedEq⟩ :=
    resetEpisodePlanning_eq around (Int.le_refl 1) notLink
      (show resetCursor host _ project 1 = .ok none from rfl)
  have ledger : EmptyLedger outcome.project := by
    rw [projectEq]
    exact .resetLedger host project 1
  have noFile : Planned.FilesKnown outcome.folder [] := by
    intro num present
    rw [folderEq] at present
    have outside := present.of_reset.2
    cases outside
  refine ⟨outcome, done, ledger, ?_, ?_, ?_⟩
  · intro later
    have recorded : Recorded host [] 0 [] [] := .nil 0
    rw [Planned.register_eq ledger.episodes recorded noFile]
    refine ⟨(Dict.get?_put _ _ _ _).trans (if_pos rfl), ?_⟩
    exact (value_put _ _ _ _).trans ledger.cursor
  · intro name node num listed known
    have onList := mem_scan host around project listed known (show inScope 1 num = true from rfl)
    rw [folderEq, deletedEq, archivedEq]
    constructor
    · apply lookup_eq_none_iff.mpr
      intro entry member
      apply bne_iff_ne.mpr
      intro same
      have named : episodeFileNum entry.1 = some num := by
        rw [← same]
        exact aliasNum_eq_some known
      obtain ⟨_, notDeleted, notArchived⟩ := mem_applyFiles named member
      rw [← same] at notDeleted notArchived
      split at onList
      · exact notDeleted onList
      · exact notArchived onList
    · split at onList
      · rename_i recreated
        exact .inr ⟨onList, recordedInFull_of_canRecreate recreated⟩
      · exact .inl ⟨archivePath folder name,
          mem_map.mpr ⟨name, onList, rfl⟩, archivePath_fresh folder name,
          get?_archived listed onList⟩
  · rw [archivedEq]
    apply pairwise_map.mpr
    apply archiveTargets_apart.1.imp
    intro first second apart
    exact apart.2

/-- Two paddings of number zero and the name the first would be kept under;
the ledger is not a list and the cursor is damaged. -/
def strayFolder : SourceFolder :=
  { isLink := false
    listing :=
      { entries := [("_episode_0.txt.bak", .dangling), ("episode_0.txt", .text "Zero.".toList),
          ("episode_00.txt", .text "Zero again.".toList)]
        sorted := by decide } }

theorem stray_files_reset : strayFolder.isLink = false ∧ ∃ outcome,
      resetEpisodePlanning plainHost bareSurroundings strayFolder
        ((Dict.empty.put "episodes" (.int 3)).put "planning_cursor" (.int 0))
        1 true = .ok (.done outcome) ∧
      CleanStart plainHost strayFolder
        ((Dict.empty.put "episodes" (.int 3)).put "planning_cursor" (.int 0))
        outcome :=
  ⟨rfl, full_reset_cleans plainHost bareSurroundings strayFolder _ rfl⟩

end MatrixSpooll.Episode
