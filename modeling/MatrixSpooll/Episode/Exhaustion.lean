import MatrixSpooll.Episode.Completion

/-!
# A plan call with nothing left to plan

A plan call reports that the sources are exhausted when its checks let it
through and no text but white space lies behind the cursor.  The status of the
project wants the cursor at the very end of the last source, so blank text
behind the last episode keeps it waiting for a plan that will never come.
-/

namespace MatrixSpooll.Episode

open Library List

/-- A plan call that nothing interrupts finds no text and reports the sources
exhausted. -/
def reportsExhausted (host : Host) (maxAttempts : Nat)
    (around : Surroundings) (folder : SourceFolder) (project : Project)
    (responses : Nat → Response) : Bool :=
  match readPlan host maxAttempts around folder project responses with
  | .ok (.finished result) => result.sourceExhausted
  | .ok (.backfill used) =>
    match backfillSourceFingerprints host folder project used with
    | .ok next => next.2.sourceExhausted
    | .error _ => false
  | .ok (.batch _) => false
  | .error _ => false

/-- The checks of a plan call let it through. -/
structure OpenToPlanning (host : Host) (folder : SourceFolder) (project : Project) : Prop where
  files : ∀ num, HasFile folder num → 1 ≤ num ∧ num ≤ (rawEpisodes project).length
  fingerprints : mismatchedSourceFingerprints host
    (project.value sourceFingerprintsKey) (discoverSources host folder) = []
  sources : discoverSources host folder ≠ []

theorem changedSources_self {fingerprints : Fingerprints}
    (distinct : (fingerprints.map Prod.fst).Nodup) :
    changedSources fingerprints fingerprints = [] := by
  have none : fingerprints.filter (fun field =>
      fingerprints.lookup field.1 ≠ some field.2) = [] := by
    apply filter_eq_nil_iff.mpr
    intro field member
    rw [decide_eq_true_eq, not_not]
    exact lookup_of_mem distinct member
  unfold changedSources
  rw [none]
  rfl

theorem exists_visible {text : Text} {offset : Nat} (visible : isBlank (text.drop offset) = false) :
    ∃ position char, offset ≤ position ∧ text[position]? = some char ∧ isSpace char = false := by
  obtain ⟨char, member, notSpace⟩ := all_eq_false.mp visible
  obtain ⟨index, found⟩ := getElem?_of_mem member
  rw [getElem?_drop] at found
  exact ⟨offset + index, char, Nat.le_add_right offset index, found, Bool.eq_false_iff.mpr notSpace⟩

namespace Planned

variable {host : Host} {maxAttempts : Nat} {around : Surroundings}
  {folder : SourceFolder} {docs : List SourceDoc} {project : Project}
  {pieces : List Piece} {responses : Nat → Response}

section

variable (planned : Planned host docs project pieces)
include planned

theorem length_rawEpisodes : (rawEpisodes project).length = pieces.length := by
  obtain ⟨entries, stored, recorded⟩ := planned.recorded
  rw [rawEpisodes_eq stored, recorded.length_eq]

theorem allPlanned_iff (distinct : (docs.map SourceDoc.relPath).Nodup) : AllPlanned docs project ↔
      ∀ (index position : Nat) (doc : SourceDoc) (char : Char),
        docs[index]? = some doc → doc.text[position]? = some char →
        isSpace char = false →
        toLex (index, position) < toLex (reached pieces) := by
  rcases planned.cursor_cases with
    ⟨isEmpty, noCursor⟩ | ⟨piece, last, _, atReached, found, _, isCursor⟩
  · have nowhere : ∀ place : Nat × Nat, ¬ toLex place < toLex (reached pieces) := by
      intro place below
      rw [isEmpty] at below
      rcases Prod.Lex.toLex_lt_toLex.mp below with less | ⟨_, less⟩
      all_goals exact absurd less (Nat.not_lt_zero _)
    constructor
    · intro all index position doc char isDoc present visible
      obtain ⟨cursor, isCursor, _⟩ := all index position doc char isDoc present visible
      rw [noCursor] at isCursor
      cases isCursor
    · intro before index position doc char isDoc present visible
      exact absurd (before index position doc char isDoc present visible) (nowhere _)
  · have place : docs[(piece.file, piece.stop).1]? = some last := found
    have before : ∀ index position, BeforeCursor docs
        (last.relPath, (piece.stop : Int)) index position ↔
          toLex (index, position) < toLex (reached pieces) := by
      intro index position
      rw [atReached]
      exact beforeCursor_iff distinct place
    constructor
    · intro all index position doc char isDoc present visible
      obtain ⟨cursor, isOther, early⟩ := all index position doc char isDoc present visible
      rw [isCursor] at isOther
      cases isOther
      exact (before index position).mp early
    · intro early index position doc char isDoc present visible
      exact ⟨_, isCursor, (before index position).mpr
        (early index position doc char isDoc present visible)⟩

theorem effectiveStart_reached (some : docs ≠ []) : ∃ doc, docs[(reached pieces).1]? = .some doc ∧
      (reached pieces).2 ≤ doc.text.length ∧
      effectiveStart host docs project = .ok (doc.relPath, ((reached pieces).2 : Int)) := by
  rcases planned.cursor_cases with
    ⟨isEmpty, _⟩ | ⟨piece, doc, last, atReached, found, atMost, _⟩
  · subst isEmpty
    cases docs with
    | nil => exact absurd rfl some
    | cons first rest =>
      exact ⟨first, rfl, Nat.zero_le _, (planned.effectiveStart_first rfl).mpr ⟨first, rfl, rfl⟩⟩
  · obtain ⟨other, otherFound, started⟩ := planned.effectiveStart_last last
    rw [found] at otherFound
    cases otherFound
    rw [atReached]
    exact ⟨doc, found, atMost, started⟩

/-- A search from the last piece comes back empty exactly if every visible
character lies in front of it. -/
theorem searchEnds_exhausted_iff (distinct : (docs.map SourceDoc.relPath).Nodup)
    {end_ : Skipped} {used : Fingerprints}
    (ends : SearchEnds docs (reached pieces) end_) (stops : end_.Stops used) :
    end_ = .exhausted used ↔ AllPlanned docs project := by
  rw [planned.allPlanned_iff distinct]
  constructor
  · intro isExhausted index position doc char found present visible
    subst isExhausted
    by_contra notBefore
    have inside := (List.getElem?_eq_some_iff.mp found).1
    have blank := ReadsOn.passes ends (not_lt.mp notBefore)
      (Prod.Lex.toLex_lt_toLex.mpr (Or.inl inside)) (getElem?_texts found)
      present
    rw [visible] at blank
    cases blank
  · intro all
    cases end_ with
    | exhausted known => rw [stops]
    | found place =>
      obtain ⟨target, doc, placed, reads⟩ := ends
      have visible : isBlank (doc.text.drop target.2) = false := by
        rw [← placed.rest]
        exact stops
      obtain ⟨position, char, behind, present, notSpace⟩ := exists_visible visible
      have before := all target.1 position doc char placed.found present notSpace
      have later : toLex target ≤ toLex (target.1, position) :=
        Prod.Lex.toLex_le_toLex.mpr (Or.inr ⟨rfl, behind⟩)
      exact absurd before (not_lt.mpr (reads.forward.trans later))

end

theorem reportsExhausted_of_search {startRef : String × Int}
    (planned : Planned host (discoverSources host folder) project pieces)
    (known : FilesKnown folder pieces) (matching : mismatchedSourceFingerprints host
      (project.value sourceFingerprintsKey) (discoverSources host folder) = [])
    (started : effectiveStart host (discoverSources host folder)
      (registerOrphanEpisodeEntries host around folder project) = .ok startRef)
    (searched : planStart host around folder startRef =
      .ok (.exhausted (computeSourceFingerprints host (discoverSources host folder)))) :
    reportsExhausted host maxAttempts around folder project responses = true := by
  have opened := planned.openLedger_eq around known matching
  have keys : ((computeSourceFingerprints host
      (discoverSources host folder)).map Prod.fst).Nodup := by
    unfold computeSourceFingerprints
    rw [map_map]
    exact sources_distinct host folder
  have accepted : checkSourceFingerprints host project (discoverSources host folder) = .ok () := by
    unfold checkSourceFingerprints
    rw [matching]
    rfl
  have recorded : ∃ next, backfillSourceFingerprints host folder project
      (computeSourceFingerprints host (discoverSources host folder)) =
        .ok next ∧ next.2.sourceExhausted = true := by
    unfold backfillSourceFingerprints
    simp only [accepted, changedSources_self keys]
    exact ⟨_, rfl, rfl⟩
  obtain ⟨next, backfilled, exhausted⟩ := recorded
  unfold reportsExhausted readPlan
  simp only [opened, started, searched, bind, Except.bind]
  cases (registerOrphanEpisodeEntries host around folder project).value sourceFingerprintsKey with
  | null =>
    simp only [pure, Except.pure, backfilled]
    exact exhausted
  | _ => rfl

/-- A plan call reports the sources exhausted exactly if it gets through its
checks and every visible character lies before the cursor. -/
theorem reportsExhausted_iff (planned : Planned host (discoverSources host folder) project pieces) :
    reportsExhausted host maxAttempts around folder project responses = true ↔
      OpenToPlanning host folder project ∧ AllPlanned (discoverSources host folder) project := by
  have distinct := sources_distinct host folder
  constructor
  · intro reports
    have nothing : ∃ read, readPlan host maxAttempts around folder project
        responses = .ok read ∧ ∀ call, read ≠ .batch call := by
      unfold reportsExhausted at reports
      split at reports
      · rename_i result read
        exact ⟨_, read, nofun⟩
      · rename_i used read
        exact ⟨_, read, nofun⟩
      all_goals cases reports
    obtain ⟨read, isRead, noBatch⟩ := nothing
    unfold readPlan at isRead
    obtain ⟨healed, opened, rest⟩ := bind_eq_ok.mp isRead
    obtain ⟨startRef, started, rest⟩ := bind_eq_ok.mp rest
    obtain ⟨search, searched, rest⟩ := bind_eq_ok.mp rest
    obtain ⟨used, rfl⟩ : ∃ used, search = .exhausted used := by
      cases search with
      | found place =>
        obtain ⟨call, _, isBatch⟩ := bind_eq_ok.mp rest
        cases isBatch
        exact absurd rfl (noBatch call)
      | exhausted used => exact ⟨used, rfl⟩
    obtain ⟨isHealed, known, matching⟩ := planned.of_openLedger opened
    subst isHealed
    obtain ⟨doc, found, startEq⟩ := (planned.register known).effectiveStart_eq started
    subst startEq
    obtain ⟨end_, ended, ends, stops⟩ := planStart_ends around
      (reached pieces) found (planStart_inside found searched)
    rw [searched] at ended
    cases ended
    rw [planned.fingerprints_register known] at matching
    refine ⟨?_, (planned.searchEnds_exhausted_iff distinct ends stops).mp (by rw [stops])⟩
    exact
      { files := by
          rw [planned.length_rawEpisodes]
          exact known
        fingerprints := matching
        sources := by
          intro isEmpty
          rw [isEmpty] at found
          cases found }
  · intro described
    obtain ⟨isOpen, all⟩ := described
    have known : FilesKnown folder pieces := by
      intro num present
      rw [← planned.length_rawEpisodes]
      exact isOpen.files num present
    have healed : Planned host (discoverSources host folder)
        (registerOrphanEpisodeEntries host around folder project) pieces :=
      planned.register known
    obtain ⟨doc, found, inside, started⟩ := healed.effectiveStart_reached isOpen.sources
    obtain ⟨end_, ended, ends, stops⟩ := planStart_ends around (reached pieces) found inside
    rw [(planned.searchEnds_exhausted_iff distinct ends stops).mpr all] at ended
    exact planned.reportsExhausted_of_search known isOpen.fingerprints started ended

theorem not_atEnd {next : Project} {piece : Piece} {added : List Piece}
    (distinct : (docs.map SourceDoc.relPath).Nodup) (planned : Planned host docs project pieces)
    (more : Planned host docs next (pieces ++ piece :: added)) :
    ¬ AtEnd docs project := by
  intro atEnd
  obtain ⟨last, isLast, atLast⟩ := atEnd
  have position : (pieces ++ piece :: added)[pieces.length]? = some piece := by
    rw [List.getElem?_append_right (Nat.le_refl _), Nat.sub_self]
    rfl
  obtain ⟨reads, nonempty⟩ := more.follows position
  obtain ⟨doc, found, _, atMost⟩ := more.inside (List.mem_append_right pieces List.mem_cons_self)
  have lastFound := getElem?_of_getLast? isLast
  have inside := (List.getElem?_eq_some_iff.mp found).1
  rw [List.take_left] at reads
  rcases planned.cursor_cases with
    ⟨_, noCursor⟩ | ⟨end_, endDoc, _, atReached, endFound, _, isCursor⟩
  · rw [atLast] at noCursor
    cases noCursor
  · rw [atLast, Option.some.injEq, Prod.mk.injEq] at isCursor
    obtain ⟨samePath, sameOffset⟩ := isCursor
    have endIndex := index_unique distinct lastFound endFound samePath
    rw [atReached] at reads
    rcases reads.same_or_later with same | ⟨later, _⟩
    · obtain ⟨sameFile, sameStart⟩ := Prod.mk.inj same
      rw [← sameFile, ← endIndex, lastFound] at found
      cases found
      omega
    · simp only at later
      omega

end Planned

/-! ## Derived files of a ledger that is at the end -/

/-- With the cursor at the end of the last source, every derived file belongs
to an episode of the ledger. -/
def KnownAtEnd (host : Host) (state : PlanningState) : Prop :=
  AtEnd (discoverSources host state.folder) state.project → ∀ num, HasFile state.folder num →
      1 ≤ num ∧ num ≤ (rawEpisodes state.project).length

namespace KnownAtEnd

variable {host : Host} {maxAttempts : Nat} {folder : SourceFolder}
  {state after : PlanningState} {pieces : List Piece}

section

variable (known : KnownAtEnd host state)
include known

theorem congr (episodes : rawEpisodes after.project = rawEpisodes state.project)
    (cursor : planningCursor after.project = planningCursor state.project)
    (sameFolder : after.folder = state.folder) : KnownAtEnd host after := by
  unfold KnownAtEnd AtEnd
  rw [episodes, cursor, sameFolder]
  exact known

theorem openPlan (project : Project) (around : Surroundings) (responses : Nat → Response) :
    KnownAtEnd host (state.openPlan host maxAttempts project around responses) := by
  unfold PlanningState.openPlan
  split <;> exact known.congr rfl rfl rfl

theorem openReset (project : Project) (around : Surroundings)
    (fromEpisode : Int) (confirmConsumed : Bool) :
    KnownAtEnd host (state.openReset host project around fromEpisode confirmConsumed) := by
  unfold PlanningState.openReset
  split <;> exact known.congr rfl rfl rfl

/-- A commit that fails behind its checks found text to plan, so the ledger it
leaves was not at the end. -/
theorem closeBatch (tidy : Tidy host folder state pieces)
    (around : Surroundings) {call : PlanCall} {origin place : Nat × Nat} {doc : SourceDoc}
    (drafted : Drafted (discoverSources host folder) call origin place doc) :
    KnownAtEnd host (state.closeBatch host around call) := by
  rw [← tidy.sources.sources] at drafted
  have reconciled : Reconciled host state.folder
      (commitBatch host around state.folder state.project call).1 :=
    commitBatch_reconciled tidy.here drafted
  -- a file the commit leaves was there before or belongs to the ledger it has prepared
  have files : ∀ num, HasFile (commitBatch host around state.folder state.project call).1 num →
      HasFile state.folder num ∨ (∃ next, Planned host (discoverSources host state.folder) next
          (pieces ++ Drafted.pieces place call)) ∧
        1 ≤ num ∧ num ≤ (pieces ++ Drafted.pieces place call).length := by
    intro num present
    rcases commitBatch_folder host around state.folder state.project call with
      untouched | ⟨prepared, isPrepared, written⟩
    · rw [untouched] at present
      exact .inl present
    · obtain ⟨next, _, _⟩ := prepareBatch_planned tidy.here drafted isPrepared
      obtain ⟨entries, stored, recorded⟩ := next.recorded
      rw [written, rawEpisodes_eq stored] at present
      rcases reconcileDerivedFiles_files recorded present with earlier | bounds
      · exact .inl earlier
      · exact .inr ⟨⟨prepared.1, next⟩, bounds⟩
  unfold PlanningState.closeBatch
  split
  · rename_i written next outcome
    have committed := commitBatch_committed tidy.here drafted outcome
    rw [outcome] at files
    intro _ num present
    show 1 ≤ num ∧ num ≤ (rawEpisodes next.1).length
    rw [committed.planned.length_rawEpisodes]
    rcases files num present with earlier | ⟨_, bounds⟩
    · have bounds := committed.known num earlier
      rw [length_append]
      omega
    · exact bounds
  · rename_i written failure outcome
    rw [outcome] at files reconciled
    intro atEnd num present
    have sameSources : discoverSources host written =
        discoverSources host state.folder := reconciled.sources.sources
    have atEndBefore : AtEnd (discoverSources host state.folder) state.project := by
      rw [← sameSources]
      exact atEnd
    rcases files num present with earlier | ⟨⟨next, more⟩, _⟩
    · exact known atEndBefore num earlier
    · obtain ⟨last, isLast, _⟩ := drafted.getLast?_pieces []
      have nonempty : Drafted.pieces place call ≠ [] := ne_nil_of_mem (mem_of_getLast? isLast)
      obtain ⟨piece, added, piecesEq⟩ := exists_cons_of_ne_nil nonempty
      rw [piecesEq] at more
      exact absurd atEndBefore (tidy.here.not_atEnd (sources_distinct host state.folder) more)

theorem closeBackfill (used : Fingerprints) : KnownAtEnd host (state.closeBackfill host used) := by
  unfold PlanningState.closeBackfill
  split
  · rename_i next outcome
    unfold backfillSourceFingerprints at outcome
    obtain ⟨_, _, rest⟩ := bind_eq_ok.mp outcome
    obtain ⟨_, _, rest⟩ := bind_eq_ok.mp rest
    cases rest
    apply known.congr
    · unfold rawEpisodes
      rw [value_put, if_neg (by decide)]
    · apply planningCursor_congr
      rw [value_put, if_neg (by decide)]
    · rfl
  · exact known

theorem closePlan (tidy : Tidy host folder state pieces) (around : Surroundings)
    {read : PlanRead} (member : read ∈ state.plans) :
    KnownAtEnd host (state.closePlan host around read) := by
  cases read with
  | batch call =>
    obtain ⟨origin, place, doc, drafted⟩ := tidy.drafted call member
    exact known.closeBatch tidy around drafted
  | backfill used => exact known.closeBackfill used
  | finished result => exact known

/-- A reset either drops the cursor or keeps the files of the episodes it
keeps. -/
theorem closeReset (tidy : Tidy host folder state pieces)
    (around : Surroundings) (call : ResetCall) :
    KnownAtEnd host (state.closeReset host around call) := by
  unfold PlanningState.closeReset
  split
  · rename_i outcome committed
    obtain ⟨cursor, resolved, projectEq, folderEq⟩ := commitReset_eq_ok committed
    intro atEnd num present
    rcases tidy.here.resetCursor_cases (sources_distinct host state.folder) resolved with
      isFull | ⟨index, piece, doc, fromEq, found, docFound, isPartial⟩
    · obtain ⟨last, _, atLast⟩ := atEnd
      subst isFull
      have full := Planned.resetLedger_full host
        (discoverSources host state.folder) state.project call.fromEpisode
      have noCursor := full.cursor
      rw [← projectEq] at noCursor
      have someCursor : planningCursor outcome.project = _ := atLast
      rw [noCursor] at someCursor
      cases someCursor
    · subst isPartial
      have kept := tidy.here.resetLedger_partial found docFound
      have inside := (List.getElem?_eq_some_iff.mp found).1
      have left := tidy.filesKnown_reset around inside
      rw [← fromEq] at kept left
      rw [← projectEq] at kept
      rw [← folderEq] at left
      show 1 ≤ num ∧ num ≤ (rawEpisodes outcome.project).length
      rw [kept.length_rawEpisodes]
      exact left num present
  · exact known

theorem setWindow (windowChars maxEpisodes : Json) :
    KnownAtEnd host (state.setWindow windowChars maxEpisodes) := by
  apply known.congr
  · unfold PlanningState.setWindow rawEpisodes
    rw [value_put, if_neg (by decide), value_put, if_neg (by decide)]
  · apply planningCursor_congr
    unfold PlanningState.setWindow
    rw [value_put, if_neg (by decide), value_put, if_neg (by decide)]
  · rfl

theorem next (tidy : Tidy host folder state pieces) {event : PlanningEvent}
    (step : state.next host maxAttempts event = some after) :
    KnownAtEnd host after := by
  cases event with
  | loadProject =>
    cases step
    exact known.congr rfl rfl rfl
  | readPlan index around responses =>
    obtain ⟨project, _, rfl⟩ := Option.map_eq_some_iff.mp step
    exact (@openPlan _ maxAttempts _ known project around responses).congr rfl rfl rfl
  | commitPlan around index =>
    obtain ⟨read, found, rfl⟩ := Option.map_eq_some_iff.mp step
    exact (known.closePlan tidy around (mem_of_getElem? found)).congr rfl rfl rfl
  | readReset index around fromEpisode confirmConsumed =>
    obtain ⟨project, _, rfl⟩ := Option.map_eq_some_iff.mp step
    exact (known.openReset project around fromEpisode confirmConsumed).congr rfl rfl rfl
  | commitReset around index =>
    obtain ⟨call, _, rfl⟩ := Option.map_eq_some_iff.mp step
    exact (known.closeReset tidy around call).congr rfl rfl rfl
  | configure windowChars maxEpisodes =>
    cases step
    exact known.setWindow windowChars maxEpisodes

end

theorem reachable {project : Project} (empty : EmptyLedger project)
    (reached : (PlanningState.system host maxAttempts folder project).Reachable state) :
    KnownAtEnd host state ∧ ∃ pieces, Tidy host folder state pieces := by
  have invariant : (PlanningState.system host maxAttempts folder
      project).Invariant (fun state => KnownAtEnd host state ∧
        ∃ pieces, Tidy host folder state pieces) :=
    { initially := by
        intro start isStart
        cases isStart
        have tidy : Tidy host folder (PlanningState.initial folder project) [] := Tidy.initial empty
        refine ⟨?_, [], tidy⟩
        intro atEnd
        obtain ⟨_, _, atLast⟩ := atEnd
        have noCursor := tidy.planned.cursor
        rw [atLast] at noCursor
        cases noCursor
      preserved := by
        intro before event after holds step
        obtain ⟨known, pieces, tidy⟩ := holds
        exact ⟨known.next tidy step, tidy.next step⟩ }
  exact invariant.reachable reached

end KnownAtEnd

theorem AtEnd.allPlanned {docs : List SourceDoc} {project : Project}
    (distinct : (docs.map SourceDoc.relPath).Nodup)
    (atEnd : AtEnd docs project) : AllPlanned docs project := by
  obtain ⟨last, isLast, isCursor⟩ := atEnd
  intro index position doc char found present _
  refine ⟨_, isCursor, docs.length - 1, sourceIndex_eq distinct (getElem?_of_getLast? isLast), ?_⟩
  have inside := (List.getElem?_eq_some_iff.mp found).1
  have early := (List.getElem?_eq_some_iff.mp present).1
  by_cases isFinal : index = docs.length - 1
  · right
    refine ⟨isFinal, ?_⟩
    rw [isFinal, getElem?_of_getLast? isLast] at found
    cases found
    exact Int.ofNat_lt.mpr early
  · left
    omega

/-- The status and the planner agree on a state unless there is nothing but
white space left to plan and the status does not see the cursor at the end of
the last source. -/
theorem planning_complete_agrees_iff (host : Host) (maxAttempts : Nat)
    (folder : SourceFolder) (project : Project) (empty : EmptyLedger project)
    (state : PlanningState) (reachable : (PlanningState.system host maxAttempts folder
      project).Reachable state)
    (around : Surroundings) (responses : Nat → Response) :
    (statusPlanningComplete host state.folder state.project = true ↔
      reportsExhausted host maxAttempts around state.folder state.project responses = true) ↔
    (OpenToPlanning host state.folder state.project →
      AllPlanned (discoverSources host state.folder) state.project →
      Readable host state.folder ∧ AtEnd (discoverSources host state.folder) state.project) := by
  obtain ⟨known, pieces, tidy⟩ := KnownAtEnd.reachable empty reachable
  have distinct := sources_distinct host state.folder
  rw [tidy.status_complete_iff, tidy.here.reportsExhausted_iff]
  constructor
  · intro agree isOpen all
    exact agree.mpr ⟨isOpen, all⟩
  · intro complete
    constructor
    · intro described
      obtain ⟨_, atEnd⟩ := described
      refine ⟨?_, atEnd.allPlanned distinct⟩
      obtain ⟨last, isLast, isCursor⟩ := atEnd
      have nonempty : pieces ≠ [] := by
        intro isEmpty
        have noCursor := tidy.planned.cursor
        rw [isCursor, isEmpty] at noCursor
        cases noCursor
      exact
        { files := known ⟨last, isLast, isCursor⟩
          fingerprints := tidy.fingerprints_match nonempty
          sources := ne_nil_of_mem (mem_of_getLast? isLast) }
    · intro described
      obtain ⟨isOpen, all⟩ := described
      exact complete isOpen all

theorem planned_novel_complete : ∃ state, (PlanningState.system plainHost 3 novelFolder
        newProject).Reachable state ∧
      statusPlanningComplete plainHost state.folder state.project = true ∧
      reportsExhausted plainHost 3 bareSurroundings state.folder
        state.project (fun _ => .truncated "") = true := by
  have run : (novelEvents.foldlM (PlanningState.next plainHost 3)
      (PlanningState.initial novelFolder newProject)).map
        (fun state => statusPlanningComplete plainHost state.folder
          state.project) = some true := by decide +kernel
  obtain ⟨state, isState, complete⟩ := Option.map_eq_some_iff.mp run
  have reachable : (PlanningState.system plainHost 3 novelFolder newProject).Reachable state :=
    ⟨_, novelEvents, rfl, TransitionSystem.Run.of_foldlM (fun _ _ _ step => step) isState⟩
  obtain ⟨pieces, tidy⟩ := Tidy.reachable newProject_empty reachable
  refine ⟨state, reachable, complete, ?_⟩
  have agree := planning_complete_agrees_iff plainHost 3 novelFolder
    newProject newProject_empty state reachable bareSurroundings
    (fun _ => .truncated "")
  exact (agree.mpr (fun _ _ => tidy.status_complete_iff.mp complete)).mp complete

/-- One page of text and a blank file behind it. -/
def blankEndFolder : SourceFolder :=
  { isLink := false
    listing :=
      { entries := [("a.txt", .text "One.".toList), ("b.txt", .text " \n".toList)]
        sorted := by decide } }

/-- After the text is planned a plan call finds the sources exhausted, but the
status waits for the blank file. -/
theorem blank_last_source_never_complete : ∃ state, (PlanningState.system plainHost 3 blankEndFolder
        newProject).Reachable state ∧
      reportsExhausted plainHost 3 bareSurroundings state.folder
        state.project (fun _ => .truncated "") = true ∧
      statusPlanningComplete plainHost state.folder state.project = false := by
  have run : (([.loadProject,
      .readPlan 0 bareSurroundings (answer (draftEnding "One." (by decide)) []),
      .commitPlan bareSurroundings 0] : List PlanningEvent).foldlM (PlanningState.next plainHost 3)
        (PlanningState.initial blankEndFolder newProject)).map
        (fun state => (reportsExhausted plainHost 3 bareSurroundings
            state.folder state.project (fun _ => .truncated ""),
          statusPlanningComplete plainHost state.folder state.project)) =
      some (true, false) := by decide +kernel
  obtain ⟨state, isState, answers⟩ := Option.map_eq_some_iff.mp run
  obtain ⟨exhausted, incomplete⟩ := Prod.mk.inj answers
  exact ⟨state, ⟨_, _, rfl, TransitionSystem.Run.of_foldlM (fun _ _ _ step => step) isState⟩,
    exhausted, incomplete⟩

end MatrixSpooll.Episode
