import MatrixSpooll.Episode.CleanStart

/-!
# Planner and reset agree

Whatever ledger planning has led to, a partial reset from any of its episodes
but the first is accepted, and the next plan call goes on exactly where the
episodes kept end.
-/

namespace MatrixSpooll.Episode

open Library List

theorem mismatchedSourceFingerprints_current {host : Host}
    {docs : List SourceDoc} (distinct : (docs.map SourceDoc.relPath).Nodup) :
    mismatchedSourceFingerprints host
      (.dict (fingerprintFields (computeSourceFingerprints host docs)))
      docs = [] := by
  have keys : ((computeSourceFingerprints host docs).map Prod.fst).Nodup := by
    unfold computeSourceFingerprints
    rw [map_map]
    exact distinct
  have none : (fingerprintFields (computeSourceFingerprints host docs)).filterMap (mismatchedField
        (computeSourceFingerprints host docs)) = [] := by
    apply filterMap_eq_nil_iff.mpr
    intro field member
    obtain ⟨pair, isPair, fieldEq⟩ := mem_map.mp member
    subst fieldEq
    have looked := lookup_of_mem keys isPair
    unfold mismatchedField
    rw [looked]
    exact if_neg (not_not.mpr rfl)
  simp only [mismatchedSourceFingerprints, none]
  rfl

/-- A search for text that began at `cursor` either stays there or goes to the
beginning of a later file, and what it passes over is white space; it comes
back empty only if white space is all that is left. -/
def SkipsBlanks (docs : List SourceDoc) (cursor : String × Int) : Skipped → Prop
  | .found place =>
    ((place.sourceRel, place.start) = cursor ∨
      ∃ index later, sourceIndex docs cursor.1 = some index ∧
        sourceIndex docs place.sourceRel = some later ∧ index < later ∧
        place.start = 0) ∧
    ∀ (index position : Nat) (doc : SourceDoc) (char : Char),
      docs[index]? = some doc → doc.text[position]? = some char →
      ¬ BeforeCursor docs cursor index position →
      BeforeCursor docs (place.sourceRel, place.start) index position →
      isSpace char = true
  | .exhausted _ =>
    ∀ (index position : Nat) (doc : SourceDoc) (char : Char),
      docs[index]? = some doc → doc.text[position]? = some char →
      ¬ BeforeCursor docs cursor index position → isSpace char = true

theorem beforeCursor_iff {docs : List SourceDoc}
    (distinct : (docs.map SourceDoc.relPath).Nodup) {spot : Nat × Nat}
    {doc : SourceDoc} (found : docs[spot.1]? = some doc) {index position : Nat} :
    BeforeCursor docs (doc.relPath, (spot.2 : Int)) index position ↔
      toLex (index, position) < toLex spot := by
  rw [Prod.Lex.toLex_lt_toLex]
  constructor
  · intro before
    obtain ⟨cursorIndex, isIndex, early⟩ := before
    rw [sourceIndex_eq distinct found] at isIndex
    cases isIndex
    simp only at early ⊢
    omega
  · intro before
    refine ⟨spot.1, sourceIndex_eq distinct found, ?_⟩
    simp only at before ⊢
    omega

theorem SearchEnds.skipsBlanks {docs : List SourceDoc}
    (distinct : (docs.map SourceDoc.relPath).Nodup) {spot : Nat × Nat}
    {doc : SourceDoc} (found : docs[spot.1]? = some doc) {end_ : Skipped}
    (ends : SearchEnds docs spot end_) :
    SkipsBlanks docs (doc.relPath, (spot.2 : Int)) end_ := by
  cases end_ with
  | found place =>
    obtain ⟨target, targetDoc, placed, reads⟩ := ends
    have placeEq : (place.sourceRel, place.start) = (targetDoc.relPath, (target.2 : Int)) := by
      rw [placed.sourceRel, placed.start]
    constructor
    · rcases reads.same_or_later with same | ⟨later, atStart, _⟩
      · left
        subst same
        have sameDoc := found
        rw [placed.found] at sameDoc
        cases sameDoc
        exact placeEq
      · right
        refine ⟨spot.1, target.1, sourceIndex_eq distinct found, ?_, later, ?_⟩
        · rw [placed.sourceRel]
          exact sourceIndex_eq distinct placed.found
        · rw [placed.start, atStart]
          rfl
    · intro index position other char isOther present notBefore before
      rw [beforeCursor_iff distinct found, not_lt] at notBefore
      rw [placeEq, beforeCursor_iff distinct placed.found] at before
      exact reads.passes notBefore before (getElem?_texts isOther) present
  | exhausted used =>
    intro index position other char isOther present notBefore
    rw [beforeCursor_iff distinct found, not_lt] at notBefore
    have inside := (List.getElem?_eq_some_iff.mp isOther).1
    exact ReadsOn.passes ends notBefore (Prod.Lex.toLex_lt_toLex.mpr (Or.inl inside))
      (getElem?_texts isOther) present

section Reset

variable {host : Host} {around : Surroundings} {folder : SourceFolder} {project : Project}

theorem Planned.fingerprints_register {pieces : List Piece}
    (planned : Planned host (discoverSources host folder) project pieces)
    (known : Planned.FilesKnown folder pieces) :
    (registerOrphanEpisodeEntries host around folder project).value
        sourceFingerprintsKey = project.value sourceFingerprintsKey := by
  obtain ⟨entries, stored, recorded⟩ := planned.recorded
  rw [Planned.register_eq stored recorded known, value_put, if_neg (by decide)]

/-- A ledger with a range for every file and with fingerprints that match the
sources is open to planning. -/
theorem Planned.openLedger_eq {pieces : List Piece} (around : Surroundings)
    (planned : Planned host (discoverSources host folder) project pieces)
    (known : Planned.FilesKnown folder pieces) (matching : mismatchedSourceFingerprints host
      (project.value sourceFingerprintsKey) (discoverSources host folder) = []) :
    openLedger host around folder project =
      .ok (registerOrphanEpisodeEntries host around folder project) := by
  have accepted : checkSourceFingerprints host
      (registerOrphanEpisodeEntries host around folder project)
      (discoverSources host folder) = .ok () := by
    unfold checkSourceFingerprints
    rw [planned.fingerprints_register known, matching]
    rfl
  unfold openLedger
  apply bind_eq_ok.mpr
  refine ⟨(), (planned.register known).checkSourceRanges_eq, ?_⟩
  apply bind_eq_ok.mpr
  exact ⟨(), accepted, rfl⟩

end Reset

/-- A confirmed reset from `fromEpisode` goes through, and the plan call after
it begins at `cursor` with the number `fromEpisode`. -/
structure Resumes (host : Host) (around later : Surroundings)
    (state : PlanningState) (fromEpisode : Int) (cursor : String × Int) :
    Prop where
  accepted : resolvePartialResetCursor host
    (discoverSources host state.folder) state.project fromEpisode = .ok cursor
  resumed : ∃ outcome healed found,
    resetEpisodePlanning host around state.folder state.project fromEpisode
        true = .ok (.done outcome) ∧
      openLedger host later outcome.folder outcome.project = .ok healed ∧
      effectiveStart host (discoverSources host outcome.folder) healed = .ok cursor ∧
      nextNum host (keptItems (rawEpisodes healed)) = fromEpisode ∧
      planStart host later outcome.folder cursor = .ok found ∧
      SkipsBlanks (discoverSources host outcome.folder) cursor found

namespace Tidy

variable {host : Host} {folder : SourceFolder} {state : PlanningState} {pieces : List Piece}

variable (tidy : Tidy host folder state pieces)
include tidy

theorem fingerprints_match (nonempty : pieces ≠ []) : mismatchedSourceFingerprints host
      (state.project.value sourceFingerprintsKey) (discoverSources host state.folder) = [] := by
  rw [tidy.fingerprints nonempty, tidy.sources.sources]
  exact mismatchedSourceFingerprints_current (sources_distinct host folder)

theorem filesKnown_reset (around : Surroundings) {index : Nat} (inside : index < pieces.length) :
    Planned.FilesKnown (applyFiles state.folder
        (scan host around state.folder state.project ((index : Int) + 2)))
      (pieces.take (index + 1)) := by
  intro num present
  obtain ⟨earlier, outside⟩ := present.of_reset
  simp only [inScope, Bool.or_eq_false_iff, decide_eq_false_iff_not] at outside
  have nonempty : pieces ≠ [] := ne_nil_of_length_pos (by omega)
  have positive := tidy.files nonempty num earlier
  rw [length_take]
  omega

theorem resumes (around later : Surroundings) {index : Nat} (inside : index + 1 < pieces.length) :
    ∃ piece doc, pieces[index]? = some piece ∧
      (discoverSources host folder)[piece.file]? = some doc ∧
      Resumes host around later state ((index : Int) + 2) (doc.relPath, (piece.stop : Int)) := by
  have nonempty : pieces ≠ [] := ne_nil_of_length_pos (by omega)
  obtain ⟨piece, doc, found, docFound, resolved⟩ := tidy.here.resolve_eq
    (sources_distinct host state.folder) inside (tidy.fingerprints_match nonempty)
  have cursor : resetCursor host (discoverSources host state.folder)
      state.project ((index : Int) + 2) = .ok (some (doc.relPath, (piece.stop : Int))) := by
    rw [resetCursor, if_pos (by omega), resolved]
  obtain ⟨outcome, done, projectEq, folderEq, _⟩ :=
    resetEpisodePlanning_eq around (by omega) (tidy.notLink nonempty) cursor
  have same : SameSources host state.folder outcome.folder := by
    rw [folderEq]
    exact applyFiles_sameSources scan_offSource.1 scan_offSource.2
  have sources := tidy.sources.trans same
  rw [tidy.sources.sources] at docFound
  have planned := tidy.planned.resetLedger_partial found docFound
  rw [← projectEq, ← sources.sources] at planned
  have known := tidy.filesKnown_reset around (show index < pieces.length by omega)
  rw [← folderEq] at known
  have matching : mismatchedSourceFingerprints host (outcome.project.value sourceFingerprintsKey)
      (discoverSources host outcome.folder) = [] := by
    have kept : outcome.project.value sourceFingerprintsKey =
        state.project.value sourceFingerprintsKey := by
      rw [projectEq]
      unfold resetLedger
      rw [value_put, if_neg (by decide), value_put, if_neg (by decide)]
    rw [kept, same.sources]
    exact tidy.fingerprints_match nonempty
  have docThere := docFound
  rw [← sources.sources] at docThere
  have registered : Planned host (discoverSources host outcome.folder)
      (registerOrphanEpisodeEntries host later outcome.folder
        outcome.project) (pieces.take (index + 1)) := planned.register known
  obtain ⟨startDoc, startFound, started⟩ :=
    registered.effectiveStart_last (getLast?_take_succ found)
  rw [docThere] at startFound
  cases startFound
  obtain ⟨entries, stored, recorded⟩ := registered.recorded
  have next : nextNum host (keptItems (rawEpisodes
      (registerOrphanEpisodeEntries host later outcome.folder
        outcome.project))) = (index : Int) + 2 := by
    rw [rawEpisodes_eq stored, recorded.keptItems_eq, recorded.nextNum_eq, length_take]
    omega
  obtain ⟨otherDoc, otherFound, _, atMost⟩ := tidy.planned.inside (mem_of_getElem? found)
  rw [docFound] at otherFound
  cases otherFound
  obtain ⟨end_, ended, ends, _⟩ := planStart_ends later (piece.file, piece.stop) docThere atMost
  refine ⟨piece, doc, found, docFound, ?_⟩
  exact
    { accepted := resolved
      resumed := ⟨outcome, _, end_, done,
        planned.openLedger_eq later known matching, started, next, ended,
        ends.skipsBlanks (sources_distinct host outcome.folder) docThere⟩ }

end Tidy

/-- Over every run from an empty ledger, a partial reset is accepted wherever
there is an episode to reset and one before it to keep, and planning goes on at
the end of the one before. -/
theorem partial_reset_agrees (host : Host) (maxAttempts : Nat)
    (folder : SourceFolder) (project : Project) (empty : EmptyLedger project)
    (state : PlanningState) (reachable : (PlanningState.system host maxAttempts folder
      project).Reachable state)
    (around later : Surroundings) (fromEpisode : Int) (atLeast : 2 ≤ fromEpisode)
    (atMost : fromEpisode ≤ (rawEpisodes state.project).length) :
    ∃ entry rel start stop, (rawEpisodes state.project)[(fromEpisode - 2).toNat]? = some entry ∧
      entryNum host entry = some (fromEpisode - 1) ∧
      parseSourceRange entry = some (rel, start, stop) ∧
      Resumes host around later state fromEpisode (rel, stop) := by
  obtain ⟨pieces, tidy⟩ := Tidy.reachable empty reachable
  obtain ⟨entries, stored, recorded⟩ := tidy.planned.recorded
  rw [rawEpisodes_eq stored] at atMost ⊢
  obtain ⟨index, fromEq⟩ : ∃ index : Nat, fromEpisode = (index : Int) + 2 :=
    ⟨(fromEpisode - 2).toNat, by omega⟩
  subst fromEq
  have inside : index + 1 < pieces.length := by
    rw [← recorded.length_eq]
    omega
  obtain ⟨piece, doc, found, docFound, resumes⟩ := tidy.resumes around later inside
  obtain ⟨entry, isEntry, isRecord⟩ := recorded.getElem? found
  obtain ⟨otherDoc, otherFound, parsed, _⟩ := isRecord.range
  rw [docFound] at otherFound
  cases otherFound
  have position : ((index : Int) + 2 - 2).toNat = index := by omega
  have num := isRecord.num
  refine ⟨entry, _, _, _, ?_, ?_, parsed, resumes⟩
  · rw [position]
    exact isEntry
  · rw [num]
    apply congrArg some
    omega

/-- The third episode of the novel is the first of its file: planning goes on
at the end of the file before. -/
theorem third_episode_reset_agrees : ∃ state, (PlanningState.system plainHost 3 novelFolder
        newProject).Reachable state ∧
      (rawEpisodes state.project).length = 3 ∧
      ∃ entry rel start stop, (rawEpisodes state.project)[1]? = some entry ∧
        entryNum plainHost entry = some 2 ∧
        parseSourceRange entry = some (rel, start, stop) ∧
        Resumes plainHost bareSurroundings bareSurroundings state 3 (rel, stop) := by
  obtain ⟨state, reachable, ranges⟩ := novelEvents_reach
  have three : (rawEpisodes state.project).length = 3 := by
    have counted := congrArg length ranges
    rw [length_map] at counted
    exact counted
  exact ⟨state, reachable, three, partial_reset_agrees plainHost 3
    novelFolder newProject newProject_empty state reachable bareSurroundings
    bareSurroundings 3 (by decide) (by rw [three]; decide)⟩

end MatrixSpooll.Episode
