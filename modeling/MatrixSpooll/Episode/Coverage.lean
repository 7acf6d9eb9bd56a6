import MatrixSpooll.Episode.Retained
import MatrixSpooll.Library.Transition

/-!
# Coverage of the sources by the ledger

Any number of plan calls and resets run beside one another.  Each loads the
project, looks at the folder, and later commits under the lock; between any two
of these everything else may happen.  Whatever the order and whatever the text
model answers, the ledger stays a chain of pieces from the beginning of the
sources to its cursor.
-/

namespace MatrixSpooll.Episode

open Library Piece List Option

/-- The project, its source folder, the projects that calls have loaded and
not looked at yet, and the calls between read and commit. -/
structure PlanningState where
  project : Project
  folder : SourceFolder
  loaded : List Project
  plans : List PlanRead
  resets : List ResetCall

inductive PlanningEvent where
  | loadProject
  | readPlan (index : Nat) (around : Surroundings)
      (responses : Nat → Response)
  | commitPlan (around : Surroundings) (index : Nat)
  | readReset (index : Nat) (around : Surroundings) (fromEpisode : Int)
      (confirmConsumed : Bool)
  | commitReset (around : Surroundings) (index : Nat)
  | configure (windowChars maxEpisodes : Json)

namespace PlanningState

variable (host : Host) (maxAttempts : Nat) (state : PlanningState) (around : Surroundings)

def openPlan (project : Project) (around : Surroundings)
    (responses : Nat → Response) : PlanningState :=
  match readPlan host maxAttempts around state.folder project responses with
  | .ok (.batch call) => { state with plans := state.plans ++ [.batch call] }
  | .ok (.backfill used) => { state with plans := state.plans ++ [.backfill used] }
  | .ok (.finished _) => state
  | .error _ => state

/-- A batch that is refused may still have written files. -/
def closeBatch (call : PlanCall) : PlanningState :=
  match commitBatch host around state.folder state.project call with
  | (folder, .ok next) =>
    { state with
      project := next.1
      folder := folder }
  | (folder, .error _) => { state with folder := folder }

def closeBackfill (used : Fingerprints) : PlanningState :=
  match backfillSourceFingerprints host state.folder state.project used with
  | .ok next => { state with project := next.1 }
  | .error _ => state

def closePlan : PlanRead → PlanningState
  | .batch call => state.closeBatch host around call
  | .backfill used => state.closeBackfill host used
  | .finished _ => state

def openReset (project : Project) (around : Surroundings) (fromEpisode : Int)
    (confirmConsumed : Bool) : PlanningState :=
  match readReset host around state.folder project fromEpisode confirmConsumed with
  | .ok (.ready call) => { state with resets := state.resets ++ [call] }
  | .ok (.confirmationRequired _ _) => state
  | .error _ => state

def closeReset (call : ResetCall) : PlanningState :=
  match commitReset host around state.folder state.project call with
  | .ok outcome =>
    { state with
      project := outcome.project
      folder := outcome.folder }
  | .error _ => state

def setWindow (windowChars maxEpisodes : Json) : PlanningState :=
  { state with
    project := (state.project.put "planning_window_chars" windowChars).put
      "planning_max_episodes" maxEpisodes }

def next : PlanningEvent → Option PlanningState
  | .loadProject => some { state with loaded := state.loaded ++ [state.project] }
  | .readPlan index around responses =>
    (state.loaded[index]?).map (fun project =>
      { state.openPlan host maxAttempts project around responses with
        loaded := state.loaded.eraseIdx index })
  | .commitPlan around index =>
    (state.plans[index]?).map (fun call =>
      { state.closePlan host around call with
        plans := state.plans.eraseIdx index })
  | .readReset index around fromEpisode confirmConsumed =>
    (state.loaded[index]?).map (fun project =>
      { state.openReset host project around fromEpisode confirmConsumed with
        loaded := state.loaded.eraseIdx index })
  | .commitReset around index =>
    (state.resets[index]?).map (fun call =>
      { state.closeReset host around call with
        resets := state.resets.eraseIdx index })
  | .configure windowChars maxEpisodes => some (state.setWindow windowChars maxEpisodes)

def initial (folder : SourceFolder) (project : Project) : PlanningState :=
  { project := project
    folder := folder
    loaded := []
    plans := []
    resets := [] }

def system (folder : SourceFolder) (project : Project) :
    TransitionSystem PlanningState PlanningEvent :=
  .ofFunction (initial folder project) (next host maxAttempts)

end PlanningState

/-- What holds in every state; `folder` is the folder at the start. -/
structure Tidy (host : Host) (folder : SourceFolder) (state : PlanningState)
    (pieces : List Piece) : Prop where
  sources : SameSources host folder state.folder
  planned : Planned host (discoverSources host folder) state.project pieces
  loaded : ∀ project ∈ state.loaded, ∃ earlier,
    Planned host (discoverSources host folder) project earlier
  drafted : ∀ call, PlanRead.batch call ∈ state.plans → ∃ origin place doc,
      Drafted (discoverSources host folder) call origin place doc
  notLink : pieces ≠ [] → state.folder.isLink = false
  files : pieces ≠ [] → ∀ num, HasFile state.folder num → 1 ≤ num
  fingerprints : pieces ≠ [] → state.project.value sourceFingerprintsKey = .dict (fingerprintFields
      (computeSourceFingerprints host (discoverSources host folder)))

namespace Tidy

variable {host : Host} {maxAttempts : Nat} {folder : SourceFolder}
  {state : PlanningState} {pieces : List Piece}

theorem here (tidy : Tidy host folder state pieces) :
    Planned host (discoverSources host state.folder) state.project pieces := by
  rw [tidy.sources.sources]
  exact tidy.planned

theorem initial {project : Project} (empty : EmptyLedger project) :
    Tidy host folder (PlanningState.initial folder project) [] :=
  { sources := SameSources.refl folder
    planned := Planned.of_empty empty
    loaded := nofun
    drafted := nofun
    notLink := fun nonempty => absurd rfl nonempty
    files := fun nonempty => absurd rfl nonempty
    fingerprints := fun nonempty => absurd rfl nonempty }

section

variable (tidy : Tidy host folder state pieces)
include tidy

theorem withResets (resets : List ResetCall) :
    Tidy host folder { state with resets := resets } pieces :=
  { tidy with drafted := tidy.drafted }

theorem withLoaded {loaded : List Project} (known : ∀ project ∈ loaded, project ∈ state.loaded ∨
      project = state.project) :
    Tidy host folder { state with loaded := loaded } pieces := by
  refine { tidy with loaded := ?_ }
  intro project member
  rcases known project member with earlier | current
  · exact tidy.loaded project earlier
  · rw [current]
    exact ⟨pieces, tidy.planned⟩

theorem openPlan {project : Project} (member : project ∈ state.loaded)
    (around : Surroundings) (responses : Nat → Response) :
    Tidy host folder (state.openPlan host maxAttempts project around responses) pieces := by
  obtain ⟨earlier, planned⟩ := tidy.loaded project member
  unfold PlanningState.openPlan
  split
  · rename_i opened isOpened
    rw [← tidy.sources.sources] at planned
    obtain ⟨place, doc, drafted⟩ := readPlan_drafted planned isOpened
    rw [tidy.sources.sources] at drafted
    refine { tidy with drafted := ?_ }
    intro call member
    rcases mem_append.mp member with old | new
    · exact tidy.drafted call old
    · cases mem_singleton.mp new
      exact ⟨_, place, doc, drafted⟩
  · refine { tidy with drafted := ?_ }
    intro call member
    rcases mem_append.mp member with old | new
    · exact tidy.drafted call old
    · cases mem_singleton.mp new
  all_goals exact tidy

theorem closeBatch (around : Surroundings) {call : PlanCall}
    {origin place : Nat × Nat} {doc : SourceDoc}
    (drafted : Drafted (discoverSources host folder) call origin place doc) :
    ∃ after, Tidy host folder (state.closeBatch host around call) after := by
  have draftedHere := drafted
  rw [← tidy.sources.sources] at draftedHere
  have reconciled : Reconciled host state.folder
      (commitBatch host around state.folder state.project call).1 :=
    commitBatch_reconciled tidy.here draftedHere
  unfold PlanningState.closeBatch
  split
  · rename_i written next outcome
    have committed := commitBatch_committed tidy.here draftedHere outcome
    rw [outcome] at reconciled
    have planned := committed.planned
    have fingerprints := committed.fingerprints
    rw [tidy.sources.sources] at planned fingerprints
    refine ⟨pieces ++ Drafted.pieces place call, ?_⟩
    exact
      { sources := tidy.sources.trans reconciled.sources
        planned := planned
        loaded := tidy.loaded
        drafted := tidy.drafted
        notLink := fun _ => reconciled.sources.isLink.trans committed.notLink
        files := by
          intro _ num present
          rcases reconciled.files num present with earlier | positive
          · exact (committed.known num earlier).1
          · exact positive
        fingerprints := fun _ => fingerprints }
  · rename_i written failure outcome
    rw [outcome] at reconciled
    refine ⟨pieces, ?_⟩
    exact
      { sources := tidy.sources.trans reconciled.sources
        planned := tidy.planned
        loaded := tidy.loaded
        drafted := tidy.drafted
        notLink := fun nonempty => reconciled.sources.isLink.trans (tidy.notLink nonempty)
        files := by
          intro nonempty num present
          rcases reconciled.files num present with earlier | positive
          · exact tidy.files nonempty num earlier
          · exact positive
        fingerprints := tidy.fingerprints }

theorem closeBackfill (used : Fingerprints) :
    Tidy host folder (state.closeBackfill host used) pieces := by
  unfold PlanningState.closeBackfill
  split
  · rename_i next outcome
    unfold backfillSourceFingerprints at outcome
    obtain ⟨_, _, rest⟩ := bind_eq_ok.mp outcome
    obtain ⟨_, _, rest⟩ := bind_eq_ok.mp rest
    cases rest
    refine { tidy with planned := ?_, fingerprints := ?_ }
    · apply tidy.planned.congr
      · rw [Dict.get?_put, if_neg (by decide)]
      · rw [value_put, if_neg (by decide)]
    · intro _
      rw [value_put, if_pos rfl, tidy.sources.sources]
  · exact tidy

theorem closeReset (around : Surroundings) (call : ResetCall) :
    ∃ after, Tidy host folder (state.closeReset host around call) after := by
  unfold PlanningState.closeReset
  split
  · rename_i outcome committed
    obtain ⟨cursor, resolved, projectEq, folderEq⟩ := commitReset_eq_ok committed
    rw [tidy.sources.sources] at resolved
    obtain ⟨count, planned, fingerprints⟩ : ∃ count, Planned host (discoverSources host folder)
          (resetLedger host state.project call.fromEpisode cursor) (pieces.take count) ∧
        (pieces.take count ≠ [] →
          (resetLedger host state.project call.fromEpisode cursor).value sourceFingerprintsKey =
            state.project.value sourceFingerprintsKey) := by
      rcases tidy.planned.resetCursor_cases (sources_distinct host folder) resolved with
        rfl | ⟨index, piece, doc, fromEq, found, docFound, rfl⟩
      · exact ⟨0, Planned.resetLedger_full host _ _ _, fun nonempty => absurd rfl nonempty⟩
      · rw [fromEq]
        refine ⟨index + 1, tidy.planned.resetLedger_partial found docFound, ?_⟩
        intro _
        unfold resetLedger
        rw [value_put, if_neg (by decide), value_put, if_neg (by decide)]
    have same : SameSources host state.folder outcome.folder := by
      rw [folderEq]
      exact applyFiles_sameSources scan_offSource.1 scan_offSource.2
    have earlier : ∀ num, HasFile outcome.folder num → HasFile state.folder num := by
      intro num present
      rw [folderEq] at present
      exact present.of_reset.1
    have some : pieces.take count ≠ [] → pieces ≠ [] := by
      intro nonempty isEmpty
      rw [isEmpty, take_nil] at nonempty
      exact nonempty rfl
    rw [← projectEq] at planned fingerprints
    refine ⟨pieces.take count, ?_⟩
    exact
      { sources := tidy.sources.trans same
        planned := planned
        loaded := tidy.loaded
        drafted := tidy.drafted
        notLink := fun nonempty => same.isLink.trans (tidy.notLink (some nonempty))
        files := fun nonempty num present =>
          tidy.files (some nonempty) num (earlier num present)
        fingerprints := fun nonempty =>
          (fingerprints nonempty).trans (tidy.fingerprints (some nonempty)) }
  · exact ⟨pieces, tidy⟩

theorem setWindow (windowChars maxEpisodes : Json) :
    Tidy host folder (state.setWindow windowChars maxEpisodes) pieces := by
  refine { tidy with planned := ?_, fingerprints := ?_ }
  · apply tidy.planned.congr
    · unfold PlanningState.setWindow
      rw [Dict.get?_put, if_neg (by decide), Dict.get?_put, if_neg (by decide)]
    · unfold PlanningState.setWindow
      rw [value_put, if_neg (by decide), value_put, if_neg (by decide)]
  · intro nonempty
    unfold PlanningState.setWindow
    rw [value_put, if_neg (by decide), value_put, if_neg (by decide)]
    exact tidy.fingerprints nonempty

theorem next {event : PlanningEvent} {after : PlanningState}
    (step : state.next host maxAttempts event = some after) :
    ∃ afterPieces, Tidy host folder after afterPieces := by
  cases event with
  | loadProject =>
    cases step
    refine ⟨pieces, tidy.withLoaded ?_⟩
    intro project member
    rcases mem_append.mp member with earlier | current
    · exact Or.inl earlier
    · exact Or.inr (mem_singleton.mp current)
  | readPlan index around responses =>
    obtain ⟨project, found, afterEq⟩ := map_eq_some_iff.mp step
    have opened : Tidy host folder
        (state.openPlan host maxAttempts project around responses) pieces :=
      tidy.openPlan (mem_of_getElem? found) around responses
    rw [← afterEq]
    refine ⟨pieces, opened.withLoaded ?_⟩
    intro other member
    have earlier := mem_of_mem_eraseIdx member
    unfold PlanningState.openPlan
    split <;> exact Or.inl earlier
  | commitPlan around index =>
    obtain ⟨read, found, afterEq⟩ := map_eq_some_iff.mp step
    have fewer : ∀ call ∈ state.plans.eraseIdx index, call ∈ state.plans :=
      fun call member => mem_of_mem_eraseIdx member
    have closed : ∃ afterPieces, Tidy host folder (state.closePlan host around read) afterPieces ∧
        (state.closePlan host around read).plans = state.plans := by
      cases read with
      | batch call =>
        obtain ⟨origin, place, doc, drafted⟩ := tidy.drafted call (mem_of_getElem? found)
        obtain ⟨afterPieces, tidyAfter⟩ := tidy.closeBatch around drafted
        refine ⟨afterPieces, tidyAfter, ?_⟩
        show (state.closeBatch host around call).plans = _
        unfold PlanningState.closeBatch
        split <;> rfl
      | backfill used =>
        refine ⟨pieces, tidy.closeBackfill used, ?_⟩
        show (state.closeBackfill host used).plans = _
        unfold PlanningState.closeBackfill
        split <;> rfl
      | finished result => exact ⟨pieces, tidy, rfl⟩
    obtain ⟨afterPieces, tidyAfter, samePlans⟩ := closed
    rw [← afterEq]
    -- calls that are over leave the others as they were
    exact ⟨afterPieces, { tidyAfter with
      drafted := fun call member => tidyAfter.drafted call (samePlans ▸ fewer _ member) }⟩
  | readReset index around fromEpisode confirmConsumed =>
    obtain ⟨project, _, afterEq⟩ := map_eq_some_iff.mp step
    have opened : Tidy host folder (state.openReset host project around fromEpisode confirmConsumed)
        pieces := by
      unfold PlanningState.openReset
      split
      · exact tidy.withResets _
      all_goals exact tidy
    rw [← afterEq]
    refine ⟨pieces, opened.withLoaded ?_⟩
    intro other member
    have earlier := mem_of_mem_eraseIdx member
    unfold PlanningState.openReset
    split <;> exact Or.inl earlier
  | commitReset around index =>
    obtain ⟨call, _, afterEq⟩ := map_eq_some_iff.mp step
    obtain ⟨afterPieces, tidyAfter⟩ := tidy.closeReset around call
    rw [← afterEq]
    exact ⟨afterPieces, tidyAfter.withResets _⟩
  | configure windowChars maxEpisodes =>
    cases step
    exact ⟨pieces, tidy.setWindow windowChars maxEpisodes⟩

end

theorem reachable {project : Project} (empty : EmptyLedger project)
    (reached : (PlanningState.system host maxAttempts folder project).Reachable
      state) : ∃ pieces, Tidy host folder state pieces := by
  have invariant : (PlanningState.system host maxAttempts folder
      project).Invariant (fun state => ∃ pieces, Tidy host folder state pieces) :=
    { initially := by
        intro start isStart
        cases isStart
        exact ⟨[], Tidy.initial empty⟩
      preserved := by
        intro before event after holds step
        obtain ⟨pieces, tidy⟩ := holds
        exact tidy.next step }
  exact invariant.reachable reached

end Tidy

/-- One range ends before another begins, in the order of the sources. -/
def Precedes (docs : List SourceDoc) (first second : String × Int × Int) : Prop :=
  ∃ firstIndex secondIndex, sourceIndex docs first.1 = some firstIndex ∧
    sourceIndex docs second.1 = some secondIndex ∧ (firstIndex < secondIndex ∨
      firstIndex = secondIndex ∧ first.2.2 ≤ second.2.1)

/-- A position of the file at `index` lies before the cursor. -/
def BeforeCursor (docs : List SourceDoc) (cursor : String × Int) (index position : Nat) : Prop :=
  ∃ cursorIndex, sourceIndex docs cursor.1 = some cursorIndex ∧
    (index < cursorIndex ∨ index = cursorIndex ∧ (position : Int) < cursor.2)

/-- The ledger has the episodes `1, 2, …`, their ranges are not empty and lie
in their files one behind the other, and text before the cursor that is in none
of them is blank. -/
structure LedgerCoverage (host : Host) (docs : List SourceDoc)
    (project : Project) (ranges : List (String × Int × Int)) : Prop where
  numbered : (rawEpisodes project).map (entryNum host) = (range ranges.length).map
      (fun position : Nat => some ((position : Int) + 1))
  recorded : (rawEpisodes project).map parseSourceRange = ranges.map some
  inside : ∀ range ∈ ranges, ∃ doc ∈ docs, doc.relPath = range.1 ∧
    0 ≤ range.2.1 ∧ range.2.1 < range.2.2 ∧ range.2.2 ≤ doc.text.length
  ordered : ranges.Pairwise (Precedes docs)
  cursor : planningCursor project = ranges.getLast?.map (fun range => (range.1, range.2.2))
  covered : ∀ cursor, planningCursor project = some cursor →
    ∀ (index position : Nat) (doc : SourceDoc) (char : Char),
      docs[index]? = some doc → doc.text[position]? = some char →
      isSpace char = false → BeforeCursor docs cursor index position →
      ∃ range ∈ ranges, range.1 = doc.relPath ∧ range.2.1 ≤ position ∧ (position : Int) < range.2.2

/-- A piece as the ledger writes it. -/
def Piece.range (docs : List SourceDoc) (piece : Piece) : String × Int × Int :=
  (((docs[piece.file]?).map SourceDoc.relPath).getD "", (piece.start : Int), (piece.stop : Int))

theorem Piece.range_eq {docs : List SourceDoc} {piece : Piece}
    {doc : SourceDoc} (found : docs[piece.file]? = some doc) :
    piece.range docs = (doc.relPath, (piece.start : Int), (piece.stop : Int)) := by
  unfold range
  rw [found]
  rfl

theorem Recorded.map_range {host : Host} {docs : List SourceDoc}
    {index : Nat} {entries : List Json} {pieces : List Piece}
    (recorded : Recorded host docs index entries pieces) :
    entries.map parseSourceRange = (pieces.map (range docs)).map some := by
  induction recorded with
  | nil => rfl
  | cons head _ induction =>
    obtain ⟨doc, found, parsed, _⟩ := head.range
    rw [map_cons, map_cons, map_cons, induction, parsed, range_eq found]

namespace Planned

variable {host : Host} {docs : List SourceDoc} {project : Project} {pieces : List Piece}

section

variable (planned : Planned host docs project pieces)
include planned

theorem inside {piece : Piece} (member : piece ∈ pieces) :
    ∃ doc, docs[piece.file]? = some doc ∧ piece.start < piece.stop ∧
      piece.stop ≤ doc.text.length := by
  obtain ⟨entries, _, recorded⟩ := planned.recorded
  obtain ⟨index, found⟩ := getElem?_of_mem member
  obtain ⟨_, _, isRecord⟩ := recorded.getElem? found
  obtain ⟨doc, docFound, _, atMost⟩ := isRecord.range
  exact ⟨doc, docFound, (planned.follows found).2, atMost⟩

theorem ordered (distinct : (docs.map SourceDoc.relPath).Nodup) :
    (pieces.map (range docs)).Pairwise (Precedes docs) := by
  have chained := planned.chain.ordered (fun first second follows =>
    ReadsOn.forward follows)
  apply pairwise_map.mpr
  apply (pairwise_map.mp chained).imp_of_mem
  intro first second firstMember secondMember behind
  obtain ⟨firstDoc, firstFound, _⟩ := planned.inside firstMember
  obtain ⟨secondDoc, secondFound, _⟩ := planned.inside secondMember
  rw [range_eq firstFound, range_eq secondFound]
  refine ⟨first.file, second.file, sourceIndex_eq distinct firstFound,
    sourceIndex_eq distinct secondFound, ?_⟩
  rcases Prod.Lex.toLex_le_toLex.mp behind with earlier | ⟨same, atMost⟩
  · exact Or.inl earlier
  · right
    refine ⟨same, ?_⟩
    simpa using atMost

/-- A place with a character that is not white space. -/
def Visible (docs : List SourceDoc) (place : Nat ×ₗ Nat) : Prop :=
  ∃ text item, (texts docs)[(ofLex place).1]? = some text ∧
    text[(ofLex place).2]? = some item ∧ isSpace item = false

/-- Text that is not blank and lies before the end of the last piece is in
one of the pieces. -/
theorem covered {index position : Nat} {doc : SourceDoc} {char : Char}
    (found : docs[index]? = some doc)
    (present : doc.text[position]? = some char) (visible : isSpace char = false)
    (before : toLex (index, position) < toLex (reached pieces)) :
    ∃ piece ∈ pieces, piece.file = index ∧ piece.start ≤ position ∧ position < piece.stop := by
  have passes : ∀ first second : Nat ×ₗ Nat, Follows docs first second →
      ∀ place, first ≤ place → place < second → ¬ Visible docs place := by
    intro first second follows place begun early visibleThere
    obtain ⟨text, item, isText, isItem, notSpace⟩ := visibleThere
    have blank := ReadsOn.passes follows begun early isText isItem
    rw [notSpace] at blank
    cases blank
  have begun : (toLex (0, 0) : Nat ×ₗ Nat) ≤ toLex (index, position) := by
    apply Prod.Lex.toLex_le_toLex.mpr
    simp only
    omega
  have visibleHere : Visible docs (toLex (index, position)) :=
    ⟨doc.text, char, getElem?_texts found, present, visible⟩
  obtain ⟨segment, member, started, stopped⟩ := planned.chain.covers passes visibleHere begun before
  obtain ⟨piece, isPiece, segmentEq⟩ := mem_map.mp member
  subst segmentEq
  have notLater := Prod.Lex.toLex_le_toLex.mp started
  have notEarlier := Prod.Lex.toLex_lt_toLex.mp stopped
  simp only at notLater notEarlier
  exact ⟨piece, isPiece, by omega, by omega, by omega⟩

theorem coverage (distinct : (docs.map SourceDoc.relPath).Nodup) :
    LedgerCoverage host docs project (pieces.map (range docs)) := by
  obtain ⟨entries, stored, recorded⟩ := planned.recorded
  have raw := rawEpisodes_eq stored
  have cursorEq : planningCursor project = (pieces.map (range docs)).getLast?.map
        (fun range => (range.1, range.2.2)) := by
    rw [planned.cursor, getLast?_map]
    cases last : pieces.getLast? with
    | none => rfl
    | some piece =>
      obtain ⟨doc, found, _⟩ := planned.inside (mem_of_getLast? last)
      rw [bind_some, found, map_some, map_some, map_some, range_eq found]
  constructor
  · rw [raw, recorded.map_num, length_map, range_eq_range']
  · rw [raw, recorded.map_range]
  · intro range member
    obtain ⟨piece, isPiece, rangeEq⟩ := mem_map.mp member
    obtain ⟨doc, found, nonempty, atMost⟩ := planned.inside isPiece
    rw [← rangeEq, range_eq found]
    refine ⟨doc, mem_of_getElem? found, rfl, ?_, ?_, ?_⟩
    · exact Int.natCast_nonneg piece.start
    · exact Int.ofNat_lt.mpr nonempty
    · exact Int.ofNat_le.mpr atMost
  · exact planned.ordered distinct
  · exact cursorEq
  · intro cursor isCursor index position doc char found present visible before
    have atEnd := planned.cursor
    rw [isCursor] at atEnd
    cases last : pieces.getLast? with
    | none =>
      rw [last] at atEnd
      cases atEnd
    | some piece =>
      obtain ⟨lastDoc, lastFound, _⟩ := planned.inside (mem_of_getLast? last)
      rw [last, bind_some, lastFound, map_some] at atEnd
      cases atEnd
      obtain ⟨cursorIndex, isIndex, early⟩ := before
      rw [sourceIndex_eq distinct lastFound] at isIndex
      cases isIndex
      have beforeReached : toLex (index, position) < toLex (reached pieces) := by
        unfold reached
        rw [last]
        apply Prod.Lex.toLex_lt_toLex.mpr
        simp only at early ⊢
        omega
      obtain ⟨holder, isHolder, sameFile, begun, unfinished⟩ :=
        planned.covered found present visible beforeReached
      rw [← sameFile] at found
      refine ⟨holder.range docs, mem_map.mpr ⟨holder, isHolder, rfl⟩, ?_⟩
      rw [range_eq found]
      refine ⟨rfl, ?_, ?_⟩
      · exact Int.ofNat_le.mpr begun
      · exact Int.ofNat_lt.mpr unfinished

end

end Planned

/-- Over every run of plan calls and resets from an empty ledger, however they
interleave, the ledger covers the sources up to its cursor. -/
theorem ledger_covers_sources (host : Host) (maxAttempts : Nat)
    (folder : SourceFolder) (project : Project) (empty : EmptyLedger project)
    (state : PlanningState) (reachable : (PlanningState.system host maxAttempts folder
      project).Reachable state) :
    ∃ ranges, LedgerCoverage host (discoverSources host folder) state.project ranges := by
  obtain ⟨pieces, tidy⟩ := Tidy.reachable empty reachable
  exact ⟨_, tidy.planned.coverage (sources_distinct host folder)⟩

def bareSurroundings : Surroundings :=
  { fileExists := fun _ => false
    scriptFile := fun _ => false
    stepDraft := fun _ => false
    productNums := []
    stepRevision := fun _ => none
    outside := fun rel => .error rel
    readError := fun rel => rel }

def newProject : Project :=
  (Dict.empty.put "episodes" (.list [])).put "planning_cursor" .null

theorem newProject_empty : EmptyLedger newProject :=
  { episodes := rfl
    cursor := rfl }

/-- A novel in three files, the second of them blank. -/
def novelFolder : SourceFolder :=
  { isLink := false
    listing :=
      { entries := [("a.txt", .text "One. Two.\n\n".toList),
          ("b.txt", .text " \n".toList), ("c.txt", .text "Three.".toList)]
        sorted := by decide } }

def answer (first : EpisodeDraft) (rest : List EpisodeDraft) : Nat → Response :=
  fun _ => .draft
    { episodes := first :: rest
      nonempty := cons_ne_nil first rest }

/-- Two calls load the empty ledger and one of them commits; the other is
refused.  The next batch passes over the blank file. -/
def novelEvents : List PlanningEvent :=
  [.loadProject, .loadProject, .readPlan 0 bareSurroundings (answer (draftEnding "One." (by decide))
      [draftEnding "Two." (by decide)]),
    .readPlan 0 bareSurroundings (answer (draftEnding "Two." (by decide)) []),
    .commitPlan bareSurroundings 0,
    .commitPlan bareSurroundings 0,
    .loadProject,
    .readPlan 0 bareSurroundings (answer (draftEnding "Three." (by decide)) []),
    .commitPlan bareSurroundings 0]

theorem novelEvents_reach : ∃ state, (PlanningState.system plainHost 3 novelFolder
        newProject).Reachable state ∧
      (rawEpisodes state.project).map parseSourceRange =
        [some ("source/a.txt", 0, 4), some ("source/a.txt", 4, 11),
          some ("source/c.txt", 0, 6)] := by
  have run : (novelEvents.foldlM (PlanningState.next plainHost 3)
      (PlanningState.initial novelFolder newProject)).map
        (fun state => (rawEpisodes state.project).map parseSourceRange) =
      some [some ("source/a.txt", 0, 4), some ("source/a.txt", 4, 11),
        some ("source/c.txt", 0, 6)] := by decide +kernel
  obtain ⟨state, isState, ranges⟩ := map_eq_some_iff.mp run
  exact ⟨state, ⟨_, novelEvents, rfl,
    TransitionSystem.Run.of_foldlM (fun _ _ _ step => step) isState⟩, ranges⟩

theorem interleaved_plans_covered : ∃ state, (PlanningState.system plainHost 3 novelFolder
        newProject).Reachable state ∧
      (rawEpisodes state.project).map parseSourceRange =
        [some ("source/a.txt", 0, 4), some ("source/a.txt", 4, 11), some ("source/c.txt", 0, 6)] ∧
      ∃ ranges, LedgerCoverage plainHost
        (discoverSources plainHost novelFolder) state.project ranges := by
  obtain ⟨state, reachable, ranges⟩ := novelEvents_reach
  exact ⟨state, reachable, ranges, ledger_covers_sources plainHost 3
    novelFolder newProject newProject_empty state reachable⟩

end MatrixSpooll.Episode
