import MatrixSpooll.Episode.Batch

/-!
# The validation of a partial reset

For a ledger that records pieces end to end, the validation accepts every
number of the ledger and finds the end of the piece before it; what the reset
keeps is the ledger of the pieces before that number.
-/

namespace MatrixSpooll.Episode

open Library List

/-- Entries under the numbers after `index`. -/
def numbered : Nat → List Json → List (Int × Json)
  | _, [] => []
  | index, entry :: entries => ((index : Int) + 1, entry) :: numbered (index + 1) entries

theorem map_fst_numbered (index : Nat) (entries : List Json) :
    (numbered index entries).map Prod.fst = (range' index entries.length).map
        (fun position : Nat => (position : Int) + 1) := by
  induction entries generalizing index with
  | nil => rfl
  | cons entry entries induction =>
    rw [length_cons, range'_succ, map_cons, ← induction (index + 1)]
    rfl

theorem lookup_numbered (index position : Nat) (entries : List Json) :
    (numbered index entries).lookup ((index : Int) + position + 1) = entries[position]? := by
  induction entries generalizing index position with
  | nil => rfl
  | cons entry entries induction =>
    rw [numbered, lookup_cons_ite]
    cases position with
    | zero => simp
    | succ position =>
      have shifted : (index : Int) + (position + 1 : Nat) + 1 =
          ((index + 1 : Nat) : Int) + position + 1 := by
        push_cast
        omega
      rw [if_neg (by push_cast; omega), shifted, induction]
      rfl

theorem lookup_isSome_iff {entries : List (Int × Json)} {num : Int} :
    (entries.lookup num).isSome = true ↔ num ∈ entries.map Prod.fst := by
  simp

variable {index : Nat}

theorem firstGap_eq {count : Nat} {limit : Int} (atLeast : (index : Int) + 1 ≤ limit)
    (atMost : limit ≤ (index : Int) + count + 1) :
    firstGap ((index : Int) + 1) (((range' index count).map
        (fun position : Nat => (position : Int) + 1)).filter (fun num => num < limit)) = limit := by
  induction count generalizing index with
  | zero =>
    have same : (index : Int) + 1 = limit := by
      push_cast at atMost
      omega
    exact same
  | succ count induction =>
    rw [range'_succ, map_cons]
    by_cases below : (index : Int) + 1 < limit
    · have later : firstGap (((index + 1 : Nat) : Int) + 1) _ = limit :=
        induction (by push_cast; omega) (by push_cast at atMost ⊢; omega)
      rw [filter_cons_of_pos (by simpa using below)]
      unfold firstGap
      rw [if_neg (by simp)]
      push_cast at later ⊢
      exact later
    · have same : (index : Int) + 1 = limit := by omega
      have none : ((range' (index + 1) count).map
          (fun position : Nat => (position : Int) + 1)).filter
            (fun num => decide (num < limit)) = [] := by
        apply filter_eq_nil_iff.mpr
        intro num member
        obtain ⟨position, listed, numEq⟩ := mem_map.mp member
        have bounds := mem_range'_1.mp listed
        simp only [decide_eq_true_eq]
        omega
      rw [filter_cons_of_neg (by simpa using not_lt.mp below), none]
      exact same

theorem range_sorted (index count : Nat) : ((range' index count).map
      (fun position : Nat => (position : Int) + 1)).Pairwise
        (fun first second => first ≤ second) := by
  have rising : (range' index count).Pairwise
      (fun first second => first < second) := pairwise_lt_range'
  apply pairwise_map.mpr
  apply rising.imp
  intro first second below
  omega

namespace Recorded

variable {host : Host} {docs : List SourceDoc}

theorem collect {index : Nat} {entries : List Json} {pieces : List Piece}
    (recorded : Recorded host docs index entries pieces) {found : List (Int × Json)}
    (below : ∀ num ∈ found.map Prod.fst, num ≤ (index : Int)) :
    entries.foldlM (collectEntry host) found = .ok (found ++ numbered index entries) := by
  induction recorded generalizing found with
  | nil =>
    rw [numbered, append_nil]
    rfl
  | @cons index entry piece entries pieces head _ induction =>
    have fresh : (found.lookup ((index : Int) + 1)).isNone = true := by
      rw [Option.isNone_iff_eq_none, ← Option.not_isSome_iff_eq_none, lookup_isSome_iff]
      intro member
      have bound := below _ member
      omega
    have collected : collectEntry host found entry =
        .ok (found ++ [((index : Int) + 1, entry)]) := by
      have isNum := head.num
      cases entry with
      | dict fields =>
        have parsed : parseEpisodeNum host (Json.get fields "episode") =
            some ((index : Int) + 1) := isNum
        have positive : (1 : Int) ≤ (index : Int) + 1 := by omega
        simp [collectEntry, parsed, require, positive, fresh, bind, Except.bind, pure, Except.pure]
      | _ => cases isNum
    have stillBelow : ∀ num ∈ (found ++ [((index : Int) + 1, entry)]).map
        Prod.fst, num ≤ ((index + 1 : Nat) : Int) := by
      rw [map_append]
      refine forall_mem_append.mpr ⟨?_, forall_mem_singleton.mpr (Int.le_refl _)⟩
      intro num old
      have bound := below num old
      omega
    have later := induction stillBelow
    rw [append_assoc] at later
    rw [foldlM_cons, collected]
    exact later

end Recorded

variable {docs : List SourceDoc} {doc : SourceDoc}

section

variable (distinct : (docs.map SourceDoc.relPath).Nodup)
include distinct

theorem textOf_eq (found : docs[index]? = some doc) : textOf docs doc.relPath = some doc.text := by
  unfold textOf
  rw [find_eq distinct found]
  rfl

/-- The first piece begins where the first text that is not blank may. -/
theorem blankUntil_of_reads {offset : Nat} (found : docs[index]? = some doc)
    (reads : ReadsOn isSpace (texts docs) (0, 0) (index, offset)) :
    offset = 0 ∧ blankUntil docs doc.relPath = true := by
  unfold blankUntil
  rw [sourceIndex_eq distinct found]
  rcases reads.same_or_later with same | ⟨_, atStart, first, between⟩
  · cases same
    exact ⟨rfl, rfl⟩
  · have blank : ((docs.take index).drop 0).all (fun doc => isBlank doc.text) = true := by
      apply all_take_drop
      intro other otherDoc _ below otherFound
      have isText := getElem?_texts otherFound
      cases other with
      | zero => exact first otherDoc.text isText
      | succ other =>
        exact between (other + 1) otherDoc.text (Nat.succ_pos other) below isText
    exact ⟨atStart, blank⟩

theorem legalSwitch_of_reads {prevIndex prevEnd offset : Nat}
    {prevDoc : SourceDoc} (prevFound : docs[prevIndex]? = some prevDoc)
    (found : docs[index]? = some doc)
    (reads : ReadsOn isSpace (texts docs) (prevIndex, prevEnd) (index, offset)) :
    doc.relPath = prevDoc.relPath ∧ offset = prevEnd ∨ doc.relPath ≠ prevDoc.relPath ∧ offset = 0 ∧
        legalSwitch docs prevDoc.relPath prevEnd doc.relPath = true := by
  rcases reads.same_or_later with same | ⟨later, atStart, rest, between⟩
  · cases same
    rw [prevFound] at found
    cases found
    exact Or.inl ⟨rfl, rfl⟩
  · right
    refine ⟨?_, atStart, ?_⟩
    · intro samePath
      have sameIndex := index_unique distinct found prevFound samePath
      simp only at later
      omega
    · have blankRest : isBlank (prevDoc.text.drop prevEnd) = true :=
        rest prevDoc.text (getElem?_texts prevFound)
      have blankBetween : ((docs.take index).drop (prevIndex + 1)).all
          (fun doc => isBlank doc.text) = true := by
        apply all_take_drop
        intro other otherDoc above below otherFound
        exact between other otherDoc.text above below (getElem?_texts otherFound)
      unfold legalSwitch
      rw [sourceIndex_eq distinct prevFound, sourceIndex_eq distinct found,
        textOf_eq distinct prevFound]
      simp only [sliceFrom_natCast, blankRest, blankBetween, Bool.and_true, decide_eq_true_eq]
      exact later

end

/-- The ledger of a new project, and of one that was reset in full. -/
structure EmptyLedger (project : Project) : Prop where
  episodes : project.get? "episodes" = some (.list [])
  cursor : project.value "planning_cursor" = .null

theorem EmptyLedger.resetLedger (host : Host) (project : Project) (fromEpisode : Int) :
    EmptyLedger (resetLedger host project fromEpisode none) := by
  unfold Episode.resetLedger
  constructor
  · rw [Dict.get?_remove, if_neg (by decide), Dict.get?_put,
      if_neg (by decide), Dict.get?_put, if_pos rfl]
  · unfold Project.value
    rw [Dict.get?_remove, if_neg (by decide), Dict.get?_put, if_pos rfl]
    rfl

namespace Planned

variable {host : Host} {docs : List SourceDoc} {project : Project} {pieces : List Piece}
  {index : Nat} {piece : Piece}

/-- The end of the `count`th piece as the ledger writes it. -/
def endOf (docs : List SourceDoc) (pieces : List Piece) (count : Nat) : Option (String × Int) :=
  (pieces.take count).getLast?.bind (fun piece =>
    (docs[piece.file]?).map (fun doc => (doc.relPath, (piece.stop : Int))))

theorem endOf_succ {pieces : List Piece} {doc : SourceDoc} (found : pieces[index]? = some piece)
    (docFound : docs[piece.file]? = some doc) :
    endOf docs pieces (index + 1) = some (doc.relPath, (piece.stop : Int)) := by
  unfold endOf
  rw [getLast?_take_succ found, Option.bind_some, docFound]
  rfl

variable {entries : List Json}

theorem mem_numbered_iff {num : Int} : ((numbered 0 entries).lookup num).isSome = true ↔
      1 ≤ num ∧ num ≤ entries.length := by
  rw [lookup_isSome_iff, map_fst_numbered, mem_map]
  constructor
  · intro listed
    obtain ⟨position, member, numEq⟩ := listed
    have bounds := mem_range'_1.mp member
    omega
  · intro bounds
    refine ⟨(num - 1).toNat, mem_range'_1.mpr ?_, ?_⟩
    all_goals omega

theorem retainedEntries_eq (stored : project.get? "episodes" = some (.list entries))
    (recorded : Recorded host docs 0 entries pieces) (count : Nat) :
    retainedEntries host project ((count : Int) + 1) = entries.take count := by
  have raw := rawEpisodes_eq stored
  have taken : entries.filter (isRetained host ((count : Int) + 1)) = entries.take count := by
    apply filter_eq_take
    intro index entry isEntry
    obtain ⟨piece, _, isRecord⟩ := recorded.record_at isEntry
    have isNum := isRecord.num
    have numEq : numOrZero host entry = (index : Int) + 1 := by
      unfold numOrZero
      rw [isNum, Option.getD_some]
      push_cast
      omega
    cases entry with
    | dict fields =>
      simp only [isRetained, numEq, decide_eq_true_eq]
      omega
    | _ => cases isNum
  unfold retainedEntries
  rw [raw, taken]
  exact (recorded.take count).sorted.insertionSort_eq

theorem of_empty {project : Project} (empty : EmptyLedger project) : Planned host docs project [] :=
  { recorded := ⟨[], empty.episodes, .nil 0⟩
    cursor := by rw [planningCursor, empty.cursor]; rfl
    chain := .nil _ }

theorem resetLedger_full (host : Host) (docs : List SourceDoc)
    (project : Project) (fromEpisode : Int) :
    Planned host docs (resetLedger host project fromEpisode none) [] :=
  of_empty (.resetLedger host project fromEpisode)

section

variable (planned : Planned host docs project pieces)
include planned

theorem chain_take (count : Nat) : Chained (Follows docs) (toLex (0, 0))
        ((pieces.take count).map Piece.segment) (toLex (reached (pieces.take count))) ∧
      Chained (Follows docs) (toLex (reached (pieces.take count)))
        ((pieces.drop count).map Piece.segment) (toLex (reached pieces)) := by
  have chain := planned.chain
  rw [map_take, map_drop]
  rw [← take_append_drop count (pieces.map Piece.segment)] at chain
  obtain ⟨middle, front, back⟩ := chain.split
  have atMiddle : middle = toLex (reached (pieces.take count)) := by
    rw [front.final_eq, ← map_take, getLast?_map]
    unfold reached
    cases (pieces.take count).getLast? <;> rfl
  subst atMiddle
  exact ⟨front, back⟩

theorem follows (found : pieces[index]? = some piece) :
    ReadsOn isSpace (texts docs) (reached (pieces.take index))
        (piece.file, piece.start) ∧ piece.start < piece.stop := by
  obtain ⟨inside, isPiece⟩ := List.getElem?_eq_some_iff.mp found
  have back := (planned.chain_take index).2
  rw [drop_eq_getElem_cons inside, isPiece] at back
  cases back with
  | cons linked nonempty _ =>
    refine ⟨linked, ?_⟩
    rcases Prod.Lex.toLex_lt_toLex.mp nonempty with less | ⟨_, less⟩
    · exact absurd less (Nat.lt_irrefl piece.file)
    · exact less

section

variable (distinct : (docs.map SourceDoc.relPath).Nodup)
  (recorded : Recorded host docs 0 entries pieces)
include distinct recorded

theorem checkRetained_step (inside : index < pieces.length) :
    checkRetained docs (numbered 0 entries) (endOf docs pieces index)
        ((index : Int) + 1) = .ok (endOf docs pieces (index + 1)) := by
  have found : pieces[index]? = some pieces[index] := getElem?_eq_getElem inside
  obtain ⟨entry, stored, isRecord⟩ := recorded.getElem? found
  obtain ⟨doc, docFound, parsed, atMost⟩ := isRecord.range
  obtain ⟨reads, nonempty⟩ := planned.follows found
  have looked : (numbered 0 entries).lookup ((index : Int) + 1) = some entry := by
    have at0 := lookup_numbered 0 index entries
    rw [stored] at at0
    rw [← at0]
    congr 1
    push_cast
    omega
  have insideText : rangeInside (textOf docs doc.relPath)
      (pieces[index].start : Int) (pieces[index].stop : Int) = true := by
    rw [textOf_eq distinct docFound]
    simp only [rangeInside, Bool.and_eq_true, decide_eq_true_eq]
    omega
  rw [endOf_succ found docFound]
  unfold checkRetained
  rw [looked, Option.getD_some, parsed]
  simp only [insideText, require, if_true]
  cases index with
  | zero =>
    obtain ⟨atStart, blank⟩ := blankUntil_of_reads distinct docFound reads
    have noPrev : endOf docs pieces 0 = none := rfl
    rw [noPrev]
    simp [atStart, blank, bind, Except.bind, pure, Except.pure]
  | succ previous =>
    have prevFound : pieces[previous]? = some pieces[previous] := getElem?_eq_getElem (by omega)
    obtain ⟨prevEntry, _, prevRecord⟩ := recorded.getElem? prevFound
    obtain ⟨prevDoc, prevDocFound, _, _⟩ := prevRecord.range
    have atPrev : reached (pieces.take (previous + 1)) =
        (pieces[previous].file, pieces[previous].stop) := by
      unfold reached
      rw [getLast?_take_succ prevFound]
    rw [atPrev] at reads
    rw [endOf_succ prevFound prevDocFound]
    rcases legalSwitch_of_reads distinct prevDocFound docFound reads with
      ⟨samePath, sameOffset⟩ | ⟨otherPath, atStart, legal⟩
    · simp [samePath, sameOffset, bind, Except.bind, pure, Except.pure]
    · simp [otherPath, atStart, legal, bind, Except.bind, pure, Except.pure]

theorem checkRetained_run {count : Nat} (inside : count ≤ pieces.length) :
    ((range count).map (fun index : Nat => (index : Int) + 1)).foldlM
        (checkRetained docs (numbered 0 entries)) none =
      .ok (endOf docs pieces count) := by
  induction count with
  | zero => rfl
  | succ count induction =>
    rw [range_succ, map_append, foldlM_append,
      induction (by omega)]
    have step := planned.checkRetained_step distinct recorded (show count < pieces.length by omega)
    simp [bind, Except.bind, step]
    rfl

end

theorem collectEntries_eq : ∃ entries, project.get? "episodes" = some (.list entries) ∧
      Recorded host docs 0 entries pieces ∧
      collectEntries host project = .ok (numbered 0 entries) := by
  obtain ⟨entries, stored, recorded⟩ := planned.recorded
  refine ⟨entries, stored, recorded, ?_⟩
  unfold collectEntries Project.value
  rw [stored, Option.getD_some]
  exact recorded.collect nofun

variable {fromEpisode : Int}

/-- Every number but the first is accepted, and the cursor goes to the end of
the piece before it. -/
theorem resolve_eq (distinct : (docs.map SourceDoc.relPath).Nodup)
    (inside : index + 1 < pieces.length) (matching : mismatchedSourceFingerprints host
      (project.value sourceFingerprintsKey) docs = []) :
    ∃ piece doc, pieces[index]? = some piece ∧ docs[piece.file]? = some doc ∧
      resolvePartialResetCursor host docs project ((index : Int) + 2) =
        .ok (doc.relPath, (piece.stop : Int)) := by
  obtain ⟨entries, _, recorded, collected⟩ := planned.collectEntries_eq
  have found : pieces[index]? = some pieces[index] := getElem?_eq_getElem (by omega)
  obtain ⟨_, _, isRecord⟩ := recorded.getElem? found
  obtain ⟨doc, docFound, _⟩ := isRecord.range
  refine ⟨pieces[index], doc, found, docFound, ?_⟩
  have lengthEq := recorded.length_eq
  have listed : ((numbered 0 entries).lookup ((index : Int) + 2)).isSome = true := by
    apply mem_numbered_iff.mpr
    omega
  have sorted : sortedNums (numbered 0 entries) = (range' 0 entries.length).map
        (fun position : Nat => (position : Int) + 1) := by
    unfold sortedNums
    rw [map_fst_numbered]
    exact (range_sorted 0 entries.length).insertionSort_eq
  have noGap : firstGap 1 ((sortedNums (numbered 0 entries)).filter
      (fun num => num < (index : Int) + 2)) = (index : Int) + 2 := by
    rw [sorted]
    exact @firstGap_eq 0 _ _ (by omega) (by omega)
  have kept : retainedNums ((index : Int) + 2) =
      (range (index + 1)).map (fun index : Nat => (index : Int) + 1) := by
    unfold retainedNums
    congr 2
    omega
  have run := planned.checkRetained_run distinct recorded (show index + 1 ≤ pieces.length by omega)
  rw [endOf_succ found docFound] at run
  unfold resolvePartialResetCursor
  simp [collected, listed, noGap, matching, kept, run, require, bind,
    Except.bind, pure, Except.pure]

theorem resetLedger_partial {doc : SourceDoc} (found : pieces[index]? = some piece)
    (docFound : docs[piece.file]? = some doc) :
    Planned host docs (resetLedger host project ((index : Int) + 2)
        (some (doc.relPath, (piece.stop : Int))))
      (pieces.take (index + 1)) := by
  obtain ⟨entries, stored, recorded⟩ := planned.recorded
  have last := getLast?_take_succ found
  have kept := retainedEntries_eq stored recorded (index + 1)
  have sameNum : ((index + 1 : Nat) : Int) + 1 = (index : Int) + 2 := by
    push_cast
    omega
  rw [sameNum] at kept
  constructor
  · refine ⟨entries.take (index + 1), ?_, recorded.take (index + 1)⟩
    unfold resetLedger
    rw [Dict.get?_put, if_neg (by decide), Dict.get?_put, if_pos rfl, kept]
  · rw [last, Option.bind_some, docFound, Option.map_some]
    apply planningCursor_dict
    unfold resetLedger
    rw [value_put, if_pos rfl]
  · exact (planned.chain_take (index + 1)).1

theorem resetCursor_cases (distinct : (docs.map SourceDoc.relPath).Nodup)
    {cursor : Option (String × Int)}
    (result : resetCursor host docs project fromEpisode = .ok cursor) :
    cursor = none ∨ ∃ index piece doc, fromEpisode = (index : Nat) + 2 ∧
        pieces[index]? = some piece ∧ docs[piece.file]? = some doc ∧
        cursor = some (doc.relPath, (piece.stop : Int)) := by
  unfold resetCursor at result
  split at result
  · rename_i isPartial
    split at result <;> cases result
    rename_i place isPlace
    have checked := isPlace
    obtain ⟨entries, _, recorded, collected⟩ := planned.collectEntries_eq
    unfold resolvePartialResetCursor at checked
    rw [collected] at checked
    obtain ⟨_, isEntries, rest⟩ := bind_eq_ok.mp checked
    cases isEntries
    obtain ⟨_, listed, rest⟩ := bind_eq_ok.mp rest
    obtain ⟨_, _, rest⟩ := bind_eq_ok.mp rest
    obtain ⟨_, matching, _⟩ := bind_eq_ok.mp rest
    have bounds := mem_numbered_iff.mp (require_eq_ok.mp listed)
    rw [recorded.length_eq] at bounds
    have fromEq : fromEpisode = ((fromEpisode - 2).toNat : Nat) + 2 := by omega
    rw [fromEq] at isPlace
    obtain ⟨piece, doc, found, docFound, resolved⟩ :=
      planned.resolve_eq distinct
        (show (fromEpisode - 2).toNat + 1 < pieces.length by omega) (require_eq_ok.mp matching)
    rw [resolved] at isPlace
    cases isPlace
    exact Or.inr ⟨_, piece, doc, fromEq, found, docFound, rfl⟩
  · cases result
    exact Or.inl rfl

end

end Planned

theorem commitReset_eq_ok {host : Host} {around : Surroundings}
    {folder : SourceFolder} {project : Project} {call : ResetCall} {outcome : ResetOutcome}
    (committed : commitReset host around folder project call = .ok outcome) :
    ∃ cursor, resetCursor host (discoverSources host folder) project call.fromEpisode = .ok cursor ∧
      outcome.project = resetLedger host project call.fromEpisode cursor ∧
      outcome.folder = applyFiles folder (scan host around folder project call.fromEpisode) := by
  unfold commitReset at committed
  obtain ⟨cursor, resolved, rest⟩ := bind_eq_ok.mp committed
  obtain ⟨_, _, rest⟩ := bind_eq_ok.mp rest
  obtain ⟨_, _, rest⟩ := bind_eq_ok.mp rest
  refine ⟨cursor, resolved, ?_⟩
  have isOutcome := Except.ok.inj rest
  subst isOutcome
  simp only [and_self]

end MatrixSpooll.Episode
