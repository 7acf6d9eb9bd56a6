import MatrixSpooll.Episode.ResetAgreement
import MatrixSpooll.Episode.SourceRevision

/-!
# When planning is complete

Two parts of the program tell whether anything is left to plan.  A plan call
searches for text behind the place the ledger has reached; the status of the
project compares the planning cursor with the end of the last source.  They
agree unless white space alone lies between the two.
-/

namespace MatrixSpooll.Episode

open Library List

/-- The status could read every source. -/
def Readable (host : Host) (folder : SourceFolder) : Prop :=
  (computeSourceRevision host folder).blockers = []

/-- The cursor stands at the end of the last source. -/
def AtEnd (docs : List SourceDoc) (project : Project) : Prop :=
  ∃ last, docs.getLast? = some last ∧
    planningCursor project = some (last.relPath, (last.text.length : Int))

/-- Every character that is not white space lies before the cursor. -/
def AllPlanned (docs : List SourceDoc) (project : Project) : Prop :=
  ∀ (index position : Nat) (doc : SourceDoc) (char : Char),
    docs[index]? = some doc → doc.text[position]? = some char →
    isSpace char = false → ∃ cursor, planningCursor project = some cursor ∧
      BeforeCursor docs cursor index position

/-! ## The reading of the status -/

def SourceFileRead.doc (host : Host) (read : SourceFileRead) : SourceDoc :=
  { relPath := "source/" ++ read.name
    text := normalizeSourceText host read.text }

variable {host : Host} {entry : String × FileNode}

theorem sourceDoc_eq_none (other : isSourceName entry.1 = false) : sourceDoc host entry = none := by
  unfold sourceDoc
  split
  · rfl
  · rename_i visible
    rw [if_pos]
    simp only [isSourceName, Bool.and_eq_false_iff, Bool.not_eq_false',
      Option.isNone_eq_false_iff] at other
    simp only [Bool.or_eq_true, Bool.not_eq_true', not_or] at visible ⊢
    rcases other with (hidden | suffix) | derived
    · exact absurd hidden visible.2
    · exact Or.inl suffix
    · exact Or.inr derived

variable {name : String}

theorem sourceDoc_text {content : Text} (isSource : isSourceName name = true) :
    sourceDoc host (name, .text content) = some
        { relPath := "source/" ++ name
          text := normalizeSourceText host content } := by
  simp only [isSourceName, Bool.and_eq_true, Bool.not_eq_true',
    Option.isNone_iff_eq_none] at isSource
  obtain ⟨⟨visible, suffix⟩, notDerived⟩ := isSource
  simp [sourceDoc, FileNode.isFile, FileNode.readTextOrNone, visible, suffix, notDerived]

variable {rel : String} {seen : List String}

theorem readSources_cons {node : FileNode}
    {rest : List (String × String × FileNode)} {reads : List SourceFileRead}
    (result : readSources seen ((rel, name, node) :: rest) = .ok reads) :
    rel ∉ seen ∧ ∃ content others, node = .text content ∧
      readSources (rel :: seen) rest = .ok others ∧
      reads =
        { name := name
          relPath := rel
          text := content } :: others := by
  unfold readSources at result
  obtain ⟨_, fresh, afterFresh⟩ := bind_eq_ok.mp result
  obtain ⟨read, isRead, afterRead⟩ := bind_eq_ok.mp afterFresh
  obtain ⟨others, isOthers, built⟩ := bind_eq_ok.mp afterRead
  cases built
  cases node with
  | text content =>
    cases isRead
    exact ⟨require_eq_ok.mp fresh, content, others, rfl, isOthers, rfl⟩
  | _ => cases isRead

/-- The sources of a folder as the status lists them. -/
def sourcePaths (host : Host) (entries : List (String × FileNode)) :
    List (String × String × FileNode) :=
  (entries.filter (fun entry => isSourceName entry.1)).map
    (fun entry => (nfcPath host ("source/" ++ entry.1), entry))

variable {entries : List (String × FileNode)}

theorem sourcePaths_skip (other : isSourceName entry.1 = false) :
    sourcePaths host (entry :: entries) = sourcePaths host entries := by
  unfold sourcePaths
  rw [filter_cons, other]
  rfl

theorem sourcePaths_cons (isSource : isSourceName entry.1 = true) :
    sourcePaths host (entry :: entries) = (nfcPath host ("source/" ++ entry.1), entry) ::
        sourcePaths host entries := by
  unfold sourcePaths
  rw [filter_cons, isSource]
  rfl

theorem readSources_docs {reads : List SourceFileRead}
    (result : readSources seen (sourcePaths host entries) = .ok reads) :
    reads.map (SourceFileRead.doc host) = entries.filterMap (sourceDoc host) ∧
      (sourcePaths host entries).map Prod.fst = (entries.filterMap (sourceDoc host)).map
          (fun doc => nfcPath host doc.relPath) := by
  induction entries generalizing seen reads with
  | nil =>
    cases result
    exact ⟨rfl, rfl⟩
  | cons entry entries induction =>
    cases isSource : isSourceName entry.1 with
    | false =>
      rw [sourcePaths_skip isSource] at result ⊢
      rw [filterMap_cons_none (sourceDoc_eq_none isSource)]
      exact induction result
    | true =>
      rw [sourcePaths_cons isSource] at result ⊢
      obtain ⟨name, node⟩ := entry
      obtain ⟨_, content, others, isText, isOthers, readsEq⟩ := readSources_cons result
      obtain ⟨docsEq, filesEq⟩ := induction isOthers
      subst isText
      subst readsEq
      rw [filterMap_cons_some (sourceDoc_text isSource),
        map_cons, map_cons, map_cons, docsEq, filesEq]
      exact ⟨rfl, rfl⟩

theorem readSources_distinct
    {paths : List (String × String × FileNode)} {reads : List SourceFileRead}
    (result : readSources seen paths = .ok reads) :
    (∀ rel ∈ paths.map Prod.fst, rel ∉ seen) ∧ (paths.map Prod.fst).Nodup := by
  induction paths generalizing seen reads with
  | nil => exact ⟨fun _ member => absurd member not_mem_nil, .nil⟩
  | cons path paths induction =>
    obtain ⟨rel, name, node⟩ := path
    obtain ⟨fresh, _, _, _, isOthers, _⟩ := readSources_cons result
    obtain ⟨unseen, distinct⟩ := induction isOthers
    constructor
    · intro other member
      rcases mem_cons.mp member with isHead | later
      · rw [isHead]
        exact fresh
      · intro already
        exact unseen other later (mem_cons_of_mem rel already)
    · apply nodup_cons.mpr
      refine ⟨?_, distinct⟩
      intro again
      exact unseen rel again mem_cons_self

/-- What the status knows of the sources when nothing blocks it. -/
structure Reads (host : Host) (docs : List SourceDoc) (source : SourceRevisionResult) : Prop where
  files : source.files = docs.map (fun doc => nfcPath host doc.relPath)
  docs : planningDocs host (some source) = docs
  distinct : source.files.Nodup

theorem Readable.reads {folder : SourceFolder} (readable : Readable host folder) :
    Reads host (discoverSources host folder) (computeSourceRevision host folder) := by
  unfold Readable computeSourceRevision at readable
  unfold computeSourceRevision
  repeat' split at readable
  · cases readable
  · cases readable
  rename_i paths isPaths _ reads isReads
  have pathsEq : paths = sourcePaths host folder.listing.entries := by
    unfold allSourcePaths at isPaths
    split at isPaths
    · cases isPaths
    · exact (Except.ok.inj isPaths).symm
  have distinct := (readSources_distinct isReads).2
  rw [pathsEq] at isReads distinct
  obtain ⟨docsEq, filesEq⟩ := readSources_docs isReads
  rw [← pathsEq] at filesEq distinct
  exact
    { files := filesEq
      docs := docsEq
      distinct := distinct }

/-! ## The answer of the status -/

variable {project : Project}

theorem planningCursor_eq_some {offset : Int} : planningCursor project = some (rel, offset) ↔
      0 ≤ offset ∧ ∃ fields, project.value "planning_cursor" = .dict fields ∧
        (Json.get fields "source_file").asStr? = some rel ∧
        (Json.get fields "offset").asInt? = some offset := by
  unfold planningCursor
  constructor
  · intro isCursor
    repeat' split at isCursor
    all_goals cases isCursor
    rename_i fields stored _ _ isFile isPlace nonnegative
    exact ⟨nonnegative, fields, stored, isFile, isPlace⟩
  · intro described
    obtain ⟨nonnegative, fields, stored, isFile, isPlace⟩ := described
    simp only [stored, isFile, isPlace, if_pos nonnegative]

theorem sameFingerprints_fields {fingerprints : Fingerprints}
    (distinct : (fingerprints.map Prod.fst).Nodup) :
    sameFingerprints (fingerprintFields fingerprints) fingerprints = true := by
  have keys : ((fingerprintFields fingerprints).map Prod.fst).Nodup := by
    unfold fingerprintFields
    rw [map_map]
    exact distinct
  unfold sameFingerprints
  rw [Bool.and_eq_true]
  constructor
  · apply decide_eq_true
    unfold fingerprintFields
    rw [length_map]
  · apply all_eq_true.mpr
    intro field member
    have stored : (field.1, Json.str field.2) ∈ fingerprintFields fingerprints :=
      mem_map.mpr ⟨field, member, rfl⟩
    apply decide_eq_true
    unfold Json.get
    rw [lookup_of_mem keys stored]
    rfl

variable {docs : List SourceDoc}

theorem cursorAtEnd_iff {cursor : Json} {lastFile : String} :
    cursorAtEnd host cursor lastFile docs = true ↔ ∃ fields rel offset doc, cursor = .dict fields ∧
        (Json.get fields "source_file").asStr? = some rel ∧
        (Json.get fields "offset").asInt? = some offset ∧
        nfcPath host rel = lastFile ∧
        docs.filter (fun doc => nfcPath host doc.relPath = nfcPath host rel) = [doc] ∧
        (doc.text.length : Int) ≤ offset := by
  unfold cursorAtEnd
  constructor
  · intro atEnd
    repeat' split at atEnd
    all_goals simp at atEnd
    rename_i fields _ _ rel offset isFile isOffset _ doc only
    exact ⟨fields, rel, offset, doc, rfl, isFile, isOffset, atEnd.1, only, atEnd.2⟩
  · intro described
    obtain ⟨fields, rel, offset, doc, isCursor, isFile, isOffset, isLast, only, passed⟩ := described
    simp only [isCursor, isFile, isOffset, isLast, decide_true, Bool.true_and]
    rw [isLast] at only
    simp only [only]
    exact decide_eq_true passed

theorem planningComplete_iff {source : SourceRevisionResult} :
    planningComplete host project (some source) docs = true ↔
      ∃ lastFile recorded, source.files.getLast? = some lastFile ∧
        project.value sourceFingerprintsKey = .dict recorded ∧
        recorded ≠ [] ∧
        sameFingerprints recorded (computeSourceFingerprints host docs) = true ∧
        cursorAtEnd host (project.value "planning_cursor") lastFile docs = true := by
  unfold planningComplete
  rw [Option.bind_some]
  constructor
  · intro complete
    repeat' split at complete
    · cases complete
    · rename_i lastFile isLast _ recorded stored
      simp only [Bool.and_eq_true, Bool.not_eq_true', isEmpty_eq_false_iff] at complete
      obtain ⟨⟨nonempty, same⟩, atEnd⟩ := complete
      exact ⟨lastFile, recorded, isLast, stored, nonempty, same, atEnd⟩
    · cases complete
  · intro described
    obtain ⟨lastFile, recorded, isLast, stored, nonempty, same, atEnd⟩ := described
    have notEmpty : recorded.isEmpty = false := isEmpty_eq_false_iff.mpr nonempty
    simp only [isLast, stored, notEmpty, same, atEnd, Bool.not_false, Bool.and_true]

theorem Reads.index_eq {source : SourceRevisionResult}
    (reads : Reads host docs source) {first second : Nat}
    {firstDoc secondDoc : SourceDoc} (isFirst : docs[first]? = some firstDoc)
    (isSecond : docs[second]? = some secondDoc)
    (same : nfcPath host firstDoc.relPath = nfcPath host secondDoc.relPath) :
    first = second := by
  have distinct := reads.distinct
  rw [reads.files] at distinct
  exact index_unique distinct isFirst isSecond same

theorem getElem?_of_getLast? {Item : Type} {items : List Item} {item : Item}
    (isLast : items.getLast? = some item) :
    items[items.length - 1]? = some item := by
  rw [← getLast?_eq_getElem?]
  exact isLast

theorem Planned.cursor_cases {pieces : List Piece} (planned : Planned host docs project pieces) :
    pieces = [] ∧ planningCursor project = none ∨ ∃ piece doc, pieces.getLast? = some piece ∧
        reached pieces = (piece.file, piece.stop) ∧
        docs[piece.file]? = some doc ∧ piece.stop ≤ doc.text.length ∧
        planningCursor project = some (doc.relPath, (piece.stop : Int)) := by
  have cursor := planned.cursor
  cases last : pieces.getLast? with
  | none =>
    rw [last] at cursor
    exact Or.inl ⟨getLast?_eq_none_iff.mp last, cursor⟩
  | some piece =>
    obtain ⟨doc, found, _, atMost⟩ := planned.inside (mem_of_getLast? last)
    rw [last, Option.bind_some, found, Option.map_some] at cursor
    right
    refine ⟨piece, doc, rfl, ?_, found, atMost, cursor⟩
    unfold reached
    rw [last]

namespace Tidy

variable {host : Host} {folder : SourceFolder} {state : PlanningState} {pieces : List Piece}

/-- The status calls planning complete when the cursor stands at the end of
the last source and nothing kept it from reading the sources. -/
theorem status_complete_iff (tidy : Tidy host folder state pieces) :
    statusPlanningComplete host state.folder state.project = true ↔ Readable host state.folder ∧
        AtEnd (discoverSources host state.folder) state.project := by
  unfold statusPlanningComplete
  rw [planningComplete_iff]
  constructor
  · intro complete
    obtain ⟨lastFile, recorded, isLast, _, _, _, atEnd⟩ := complete
    have readable : Readable host state.folder := by
      -- a reading that is blocked lists no source
      unfold Readable
      unfold computeSourceRevision at isLast ⊢
      repeat' split at isLast
      case _ | _ => cases isLast
      rfl
    have reads := readable.reads
    rw [reads.docs] at atEnd
    rw [reads.files, getLast?_map] at isLast
    obtain ⟨last, lastDoc, lastEq⟩ := Option.map_eq_some_iff.mp isLast
    obtain ⟨fields, rel, offset, doc, stored, isFile, isOffset, sameLast,
      only, passed⟩ := cursorAtEnd_iff.mp atEnd
    have isCursor : planningCursor state.project = some (rel, offset) :=
      planningCursor_eq_some.mpr ⟨by omega, fields, stored, isFile, isOffset⟩
    rcases tidy.here.cursor_cases with
      ⟨_, noCursor⟩ | ⟨piece, cursorDoc, _, _, found, atMost, cursorEq⟩
    · rw [isCursor] at noCursor
      cases noCursor
    rw [isCursor] at cursorEq
    cases cursorEq
    have lastFound := getElem?_of_getLast? lastDoc
    have sameIndex := reads.index_eq found lastFound (by rw [sameLast, lastEq])
    rw [sameIndex, lastFound] at found
    cases found
    have inFilter : last ∈ (discoverSources host state.folder).filter
        (fun doc => nfcPath host doc.relPath = nfcPath host last.relPath) := by
      apply mem_filter.mpr
      exact ⟨mem_of_getElem? lastFound, decide_eq_true rfl⟩
    rw [only] at inFilter
    cases mem_singleton.mp inFilter
    have full : (piece.stop : Int) = (last.text.length : Int) := by omega
    rw [full] at isCursor
    exact ⟨readable, last, lastDoc, isCursor⟩
  · intro described
    obtain ⟨readable, last, lastDoc, isCursor⟩ := described
    have reads := readable.reads
    have lastFound := getElem?_of_getLast? lastDoc
    have nonempty : pieces ≠ [] := by
      intro isEmpty
      have noCursor := tidy.planned.cursor
      rw [isCursor, isEmpty] at noCursor
      cases noCursor
    have fingerprints := tidy.fingerprints nonempty
    rw [← tidy.sources.sources] at fingerprints
    obtain ⟨_, fields, stored, isFile, isOffset⟩ := planningCursor_eq_some.mp isCursor
    refine ⟨nfcPath host last.relPath, _, ?_, fingerprints, ?_, ?_, ?_⟩
    · rw [reads.files, getLast?_map, lastDoc]
      rfl
    · intro isEmpty
      have noDocs := map_eq_nil_iff.mp (map_eq_nil_iff.mp isEmpty)
      rw [noDocs] at lastDoc
      cases lastDoc
    · rw [reads.docs]
      apply sameFingerprints_fields
      unfold computeSourceFingerprints
      rw [map_map]
      exact sources_distinct host state.folder
    · rw [reads.docs]
      refine cursorAtEnd_iff.mpr ⟨fields, last.relPath, _, last, stored,
        isFile, isOffset, rfl, ?_, le_refl _⟩
      apply filter_eq_singleton lastFound (decide_eq_true rfl)
      intro other entry otherFound same
      exact reads.index_eq otherFound lastFound (of_decide_eq_true same)

end Tidy

end MatrixSpooll.Episode
