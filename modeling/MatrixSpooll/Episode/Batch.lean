import MatrixSpooll.Episode.Boundaries
import MatrixSpooll.Episode.Layout

/-!
# From a read to a committed batch

A read finds the first text that is not blank behind the place the ledger has
reached, and drafts a batch there.  The commit accepts it only if the ledger
still ends at that place, and then appends pieces that follow on.
-/

namespace MatrixSpooll.Episode

open Library List Option SameSources

theorem sources_distinct (host : Host) (folder : SourceFolder) :
    ((discoverSources host folder).map SourceDoc.relPath).Nodup := by
  have path : ∀ {entry : String × FileNode} {doc : SourceDoc},
      sourceDoc host entry = some doc → doc.relPath = "source/" ++ entry.1 := by
    intro entry doc isDoc
    unfold sourceDoc at isDoc
    repeat' split at isDoc
    · cases isDoc
    · cases isDoc
    · obtain ⟨text, _, docEq⟩ := map_eq_some_iff.mp isDoc
      rw [← docEq]
  apply pairwise_map.mpr
  apply folder.listing.sorted.filterMap (sourceDoc host)
  intro first second below firstDoc isFirst secondDoc isSecond same
  rw [path isFirst, path isSecond] at same
  exact below.ne ((String.append_right_inj "source/").mp same)

section Places

variable {docs : List SourceDoc} {index : Nat} {doc : SourceDoc} {host : Host}
  {around : Surroundings} {folder : SourceFolder}

section

variable (distinct : (docs.map SourceDoc.relPath).Nodup) (found : docs[index]? = some doc)
include distinct found

theorem sourceIndex_eq : sourceIndex docs doc.relPath = some index := by
  obtain ⟨inside, docEq⟩ := List.getElem?_eq_some_iff.mp found
  unfold sourceIndex
  rw [findIdx?_eq_some_iff_getElem]
  refine ⟨inside, by simp [docEq], ?_⟩
  intro other below
  rw [decide_eq_true_eq]
  intro same
  have otherFound : docs[other]? = some docs[other] := getElem?_eq_getElem (by omega)
  have sameIndex := index_unique distinct otherFound found same
  omega

theorem find_eq : docs.find? (fun other => other.relPath = doc.relPath) = some doc := by
  have first := sourceIndex_eq distinct found
  unfold sourceIndex at first
  rw [find?_eq_bind_findIdx?_getElem?, first, bind_some, found]

theorem sourceText_eq (used : Fingerprints) : sourceText host around folder docs used doc.relPath =
      .ok (doc.text, used) := by
  unfold sourceText
  rw [find_eq distinct found]

theorem nextSourceRel_eq : nextSourceRel docs doc.relPath =
      (docs[index + 1]?).map SourceDoc.relPath := by
  unfold nextSourceRel
  rw [sourceIndex_eq distinct found]

end

/-- A place of the planner at an offset of a source. -/
structure PlacedAt (docs : List SourceDoc) (place : PlanStart)
    (spot : Nat × Nat) (doc : SourceDoc) : Prop where
  found : docs[spot.1]? = some doc
  sourceRel : place.sourceRel = doc.relPath
  text : place.text = doc.text
  start : place.start = (spot.2 : Int)

/-- The beginning of a source, on the way from an earlier place. -/
def PlanStart.turnTo (here : PlanStart) (doc : SourceDoc) : PlanStart :=
  { sourceRel := doc.relPath
    start := 0
    text := doc.text
    used := here.used }

theorem PlacedAt.turnTo {next : SourceDoc} (found : docs[index]? = some next) (here : PlanStart) :
    PlacedAt docs (here.turnTo next) (index, 0) next :=
  { found := found
    sourceRel := rfl
    text := rfl
    start := rfl }

section Search

variable {here : PlanStart} {spot : Nat × Nat} {doc : SourceDoc}

theorem PlacedAt.rest (placed : PlacedAt docs here spot doc) :
    sliceFrom here.text here.start = doc.text.drop spot.2 := by
  rw [placed.text, placed.start, sliceFrom_natCast]

/-- The search from a place passes over blanks only, to text or to the end of
the last file. -/
def SearchEnds (docs : List SourceDoc) (spot : Nat × Nat) : Skipped → Prop
  | .found place => ∃ target doc, PlacedAt docs place target doc ∧
      ReadsOn isSpace (texts docs) spot target
  | .exhausted _ => ReadsOn isSpace (texts docs) spot (docs.length, 0)

/-- A search stops at text, or else with the fingerprints it began with. -/
def Skipped.Stops (used : Fingerprints) : Skipped → Prop
  | .found place => isBlank (sliceFrom place.text place.start) = false
  | .exhausted known => known = used

theorem SearchEnds.turn {end_ : Skipped} (found : docs[spot.1]? = some doc)
    (blank : isBlank (doc.text.drop spot.2) = true) (ends : SearchEnds docs (spot.1 + 1, 0) end_) :
    SearchEnds docs spot end_ := by
  cases end_ with
  | found place =>
    obtain ⟨target, targetDoc, placed, reads⟩ := ends
    exact ⟨target, targetDoc, placed, ReadsOn.turn (getElem?_texts found) blank reads⟩
  | exhausted used => exact ReadsOn.turn (getElem?_texts found) blank ends

section

variable (distinct : (docs.map SourceDoc.relPath).Nodup) (placed : PlacedAt docs here spot doc)
include distinct placed

theorem skipBlank_stops (last : isBlank (doc.text.drop spot.2) = true → docs[spot.1 + 1]? = none)
    (fuel : Nat) :
    ∃ end_, skipBlank host around folder docs fuel here = .ok end_ ∧
      SearchEnds docs spot end_ ∧ end_.Stops here.used := by
  unfold skipBlank
  cases blank : isBlank (doc.text.drop spot.2) with
  | false =>
    rw [← placed.rest] at blank
    rw [blank]
    exact ⟨_, rfl, ⟨spot, doc, placed, .stay spot⟩, blank⟩
  | true =>
    have nextRel := nextSourceRel_eq distinct placed.found
    rw [← placed.sourceRel, last blank] at nextRel
    rw [placed.rest, blank, nextRel]
    refine ⟨_, rfl, ?_, rfl⟩
    have inside := (List.getElem?_eq_some_iff.mp placed.found).1
    have outside := getElem?_eq_none_iff.mp (last blank)
    have atEnd : docs.length = spot.1 + 1 := by omega
    show ReadsOn isSpace (texts docs) spot (docs.length, 0)
    rw [atEnd]
    exact .turn (getElem?_texts placed.found) blank (.stay _)

theorem skipBlank_ends {fuel : Nat} (enough : docs.length ≤ spot.1 + 1 + fuel) :
    ∃ end_, skipBlank host around folder docs fuel here = .ok end_ ∧
      SearchEnds docs spot end_ ∧ end_.Stops here.used := by
  induction fuel generalizing here spot doc with
  | zero => exact skipBlank_stops distinct placed (fun _ => getElem?_eq_none enough) 0
  | succ fuel induction =>
    cases next : docs[spot.1 + 1]? with
    | none => exact skipBlank_stops distinct placed (fun _ => next) _
    | some nextDoc =>
      cases blank : isBlank (doc.text.drop spot.2) with
      | false =>
        refine skipBlank_stops distinct placed ?_ _
        simp [blank]
      | true =>
        obtain ⟨end_, ended, ends, stops⟩ := induction (PlacedAt.turnTo next here)
          (show docs.length ≤ spot.1 + 1 + 1 + fuel by omega)
        refine ⟨end_, ?_, ends.turn placed.found blank, stops⟩
        have nextRel := nextSourceRel_eq distinct placed.found
        rw [← placed.sourceRel, next] at nextRel
        unfold skipBlank
        rw [placed.rest, blank, nextRel]
        simp only [map_some, sourceText_eq distinct next]
        exact ended

end

theorem planStart_inside {offset : Nat} {end_ : Skipped}
    (found : (discoverSources host folder)[spot.1]? = some doc)
    (result : planStart host around folder (doc.relPath, (offset : Int)) =
      .ok end_) : offset ≤ doc.text.length := by
  unfold planStart at result
  obtain ⟨⟨text, used⟩, read, checked⟩ := bind_eq_ok.mp result
  obtain ⟨_, inside, _⟩ := bind_eq_ok.mp checked
  rw [sourceText_eq (sources_distinct host folder) found] at read
  cases read
  exact Int.ofNat_le.mp (require_eq_ok.mp inside)

theorem planStart_ends (around : Surroundings) (spot : Nat × Nat)
    (found : (discoverSources host folder)[spot.1]? = some doc)
    (inside : spot.2 ≤ doc.text.length) :
    ∃ end_, planStart host around folder (doc.relPath, (spot.2 : Int)) =
        .ok end_ ∧ SearchEnds (discoverSources host folder) spot end_ ∧
      end_.Stops (computeSourceFingerprints host (discoverSources host folder)) := by
  have placed : PlacedAt (discoverSources host folder)
      { sourceRel := doc.relPath
        start := (spot.2 : Int)
        text := doc.text
        used := computeSourceFingerprints host (discoverSources host folder) } spot doc :=
    { found := found
      sourceRel := rfl
      text := rfl
      start := rfl }
  obtain ⟨end_, ended, ends, stops⟩ := skipBlank_ends (sources_distinct host folder) placed
    (show _ ≤ spot.1 + 1 + (discoverSources host folder).length by omega)
  refine ⟨end_, ?_, ends, stops⟩
  unfold planStart
  apply bind_eq_ok.mpr
  refine ⟨_, sourceText_eq (sources_distinct host folder) found _, ?_⟩
  apply bind_eq_ok.mpr
  exact ⟨(), require_eq_ok.mpr (Int.ofNat_le.mpr inside), ended⟩

end Search

end Places

/-- A batch drafted behind `origin` for the text at `place`. -/
structure Drafted (docs : List SourceDoc) (call : PlanCall)
    (origin place : Nat × Nat) (doc : SourceDoc) : Prop where
  startRef : ∃ originDoc, docs[origin.1]? = some originDoc ∧
    call.startRef = (originDoc.relPath, (origin.2 : Int))
  placed : PlacedAt docs call.place place doc
  reads : ReadsOn isSpace (texts docs) origin place
  rising : Rising (doc.text.length - place.2) call.ends
  counted : call.ends.length = call.drafts.length
  nonempty : call.ends ≠ []

variable {host : Host} {around : Surroundings} {folder : SourceFolder} {project : Project}

theorem Planned.of_openLedger {healed : Project} {pieces : List Piece}
    (planned : Planned host (discoverSources host folder) project pieces)
    (opened : openLedger host around folder project = .ok healed) :
    healed = registerOrphanEpisodeEntries host around folder project ∧
      Planned.FilesKnown folder pieces ∧
      mismatchedSourceFingerprints host (healed.value sourceFingerprintsKey)
        (discoverSources host folder) = [] := by
  unfold openLedger at opened
  obtain ⟨_, checked, rest⟩ := bind_eq_ok.mp opened
  obtain ⟨_, matching, rest⟩ := bind_eq_ok.mp rest
  cases rest
  exact ⟨rfl, planned.filesKnown_of_checked checked, require_eq_ok.mp matching⟩

variable {call : PlanCall}

/-- Whatever the text model answers, a read that gets to a batch has drafted
it behind the last piece. -/
theorem readPlan_drafted {maxAttempts : Nat} {responses : Nat → Response} {pieces : List Piece}
    (planned : Planned host (discoverSources host folder) project pieces)
    (result : readPlan host maxAttempts around folder project responses = .ok (.batch call)) :
    ∃ place doc, Drafted (discoverSources host folder) call (reached pieces) place doc := by
  unfold readPlan at result
  obtain ⟨healed, opened, rest⟩ := bind_eq_ok.mp result
  obtain ⟨startRef, started, rest⟩ := bind_eq_ok.mp rest
  obtain ⟨found, searched, rest⟩ := bind_eq_ok.mp rest
  obtain ⟨isHealed, known, _⟩ := planned.of_openLedger opened
  subst isHealed
  obtain ⟨originDoc, originFound, startEq⟩ := (planned.register known).effectiveStart_eq started
  cases found with
  | exhausted used =>
    simp only at rest
    split at rest <;> cases rest
  | found place =>
    obtain ⟨drafted, isDrafted, isBatch⟩ := bind_eq_ok.mp rest
    cases isBatch
    subst startEq
    obtain ⟨end_, ended, ends, _⟩ := planStart_ends around (reached pieces)
      originFound (planStart_inside originFound searched)
    rw [searched] at ended
    cases ended
    obtain ⟨target, doc, placed, reads⟩ := ends
    obtain ⟨sameRef, samePlace, rising, counted, nonempty⟩ :=
      draftBatch_rising placed.start isDrafted
    refine ⟨target, doc, ?_⟩
    exact
      { startRef := ⟨originDoc, originFound, sameRef⟩
        placed := samePlace ▸ placed
        reads := reads
        rising := placed.text ▸ rising
        counted := counted
        nonempty := nonempty }

/-- The pieces of a batch, the first from `prev`. -/
def batchPieces (file start : Nat) : Nat → List Nat → List Piece
  | _, [] => []
  | prev, stop :: rest =>
    { file := file
      start := prev
      stop := start + stop } :: batchPieces file start (start + stop) rest

theorem getLast?_batchPieces (file start prev : Nat) (ends : List Nat) :
    ((batchPieces file start prev ends).getLast?).map (fun piece => (piece.file, piece.stop)) =
      (ends.getLast?).map (fun stop => (file, start + stop)) := by
  induction ends generalizing prev with
  | nil => rfl
  | cons stop ends induction =>
    cases ends with
    | nil => rfl
    | cons next ends =>
      rw [getLast?_cons_cons, ← induction (start + stop)]
      exact congrArg (Option.map _) getLast?_cons_cons

variable {docs : List SourceDoc} {doc : SourceDoc}

theorem batchEntries_recorded {file start prev index : Nat}
    (found : docs[file]? = some doc) {pairs : List (EpisodeDraft × Nat)}
    (within : ∀ stop ∈ pairs.map Prod.snd, start + stop ≤ doc.text.length) :
    Recorded host docs index (batchEntries around doc.relPath start prev ((index : Int) + 1) pairs)
      (batchPieces file start prev (pairs.map Prod.snd)) := by
  induction pairs generalizing prev index with
  | nil => exact .nil index
  | cons pair pairs induction =>
    obtain ⟨draft, stop⟩ := pair
    have inside : start + stop ≤ doc.text.length := within stop mem_cons_self
    have absEnd : ((start : Int) + (stop : Nat)) = ((start + stop : Nat) : Int) := by
      push_cast
      rfl
    apply Recorded.cons
    · constructor
      · dsimp only [batchEntry]
        split <;> simp [entryNum, ledgerEntryFromDraft, Json.get, parseEpisodeNum]
      · refine ⟨doc, found, ?_, inside⟩
        rw [absEnd]
        dsimp only [batchEntry]
        split <;>
          simp [parseSourceRange, ledgerEntryFromDraft, sourceRangeFields, Json.get,
            lookup_cons, Json.asStr?, Json.asInt?]
    · rw [absEnd]
      have later : Recorded host docs (index + 1)
          (batchEntries around doc.relPath start ((start + stop : Nat) : Int)
            (((index + 1 : Nat) : Int) + 1) pairs)
          (batchPieces file start (start + stop) (pairs.map Prod.snd)) :=
        induction (fun other member => within other (mem_cons_of_mem stop member))
      push_cast at later ⊢
      exact later

theorem batchPieces_chain {file start prev stop : Nat} {rest : List Nat} {origin : Nat ×ₗ Nat}
    (link : Follows docs origin (toLex (file, start + prev)))
    (rises : (prev :: stop :: rest).Pairwise (fun first second => first < second)) :
    Chained (Follows docs) origin
      ((batchPieces file start (start + prev) (stop :: rest)).map Piece.segment)
      (toLex (file, start + ((stop :: rest).getLast?.getD 0))) := by
  have forward : ∀ {low high : Nat}, low < high →
      toLex (file, start + low) < toLex (file, start + high) := by
    intro low high below
    apply Prod.Lex.toLex_lt_toLex.mpr
    exact .inr ⟨rfl, Nat.add_lt_add_left below start⟩
  induction rest generalizing origin prev stop with
  | nil =>
    apply Chained.cons link _ (.nil _)
    exact forward (rel_of_pairwise_cons rises mem_cons_self)
  | cons next rest induction =>
    obtain ⟨above, tailRises⟩ := pairwise_cons.mp rises
    apply Chained.cons link (forward (above stop mem_cons_self))
    rw [getLast?_cons_cons]
    exact induction (ReadsOn.stay _) tailRises

namespace Drafted

variable {host : Host} {docs : List SourceDoc} {call : PlanCall}
  {origin place : Nat × Nat} {doc : SourceDoc}

/-- The pieces a batch adds. -/
def pieces (place : Nat × Nat) (call : PlanCall) : List Piece :=
  batchPieces place.1 place.2 place.2 call.ends

def lastStop (place : Nat × Nat) (call : PlanCall) : Nat :=
  place.2 + call.ends.getLast?.getD 0

section

variable (drafted : Drafted docs call origin place doc)
include drafted

theorem lastEnd_eq : call.lastEnd = (lastStop place call : Int) := by
  unfold PlanCall.lastEnd lastStop
  rw [drafted.placed.start]
  push_cast
  rfl

theorem within : ∀ stop ∈ call.ends, place.2 + stop ≤ doc.text.length := by
  intro stop member
  have inside := drafted.rising.within stop member
  have positive := (pairwise_cons.mp drafted.rising.rises).1 stop member
  omega

theorem map_snd_zip : (call.drafts.zip call.ends).map Prod.snd = call.ends :=
  List.map_snd_zip drafted.counted.le

theorem recorded {around : Surroundings} {items : List Json} {index : Nat}
    (next : nextNum host (keptItems items) = (index : Int) + 1) :
    Recorded host docs index (newEntries host around items call) (pieces place call) := by
  have within : ∀ stop ∈ (call.drafts.zip call.ends).map Prod.snd,
      place.2 + stop ≤ doc.text.length := by
    rw [drafted.map_snd_zip]
    exact drafted.within
  have entries : Recorded host docs index
      (batchEntries around doc.relPath place.2 place.2 ((index : Int) + 1)
        (call.drafts.zip call.ends))
      (batchPieces place.1 place.2 place.2 ((call.drafts.zip call.ends).map Prod.snd)) :=
    batchEntries_recorded drafted.placed.found within
  rw [drafted.map_snd_zip] at entries
  unfold newEntries
  rw [next, drafted.placed.sourceRel, drafted.placed.start]
  exact entries

theorem chain : Chained (Follows docs) (toLex origin) ((pieces place call).map Piece.segment)
      (toLex (place.1, lastStop place call)) := by
  have rises := drafted.rising.rises
  have nonempty := drafted.nonempty
  unfold pieces lastStop
  cases ends : call.ends with
  | nil => exact absurd ends nonempty
  | cons stop rest =>
    rw [ends] at rises
    have link : Follows docs (toLex origin) (toLex (place.1, place.2 + 0)) := drafted.reads
    exact batchPieces_chain link rises

theorem getLast?_pieces (earlier : List Piece) :
    ∃ piece, (earlier ++ pieces place call).getLast? = some piece ∧
      piece.file = place.1 ∧ piece.stop = lastStop place call := by
  have last := getLast?_batchPieces place.1 place.2 place.2 call.ends
  have isLast := getLast?_eq_some_getLast drafted.nonempty
  rw [isLast, map_some] at last
  obtain ⟨piece, isPiece, samePlace⟩ := map_eq_some_iff.mp last
  refine ⟨piece, ?_, congrArg Prod.fst samePlace, ?_⟩
  · rw [getLast?_append]
    unfold pieces
    rw [isPiece]
    rfl
  · unfold lastStop
    rw [isLast]
    exact congrArg Prod.snd samePlace

end

end Drafted

theorem planningCursor_dict {file : String} {offset : Nat}
    (stored : project.value "planning_cursor" = .dict (cursorFields file (offset : Int))) :
    planningCursor project = some (file, (offset : Int)) := by
  unfold planningCursor
  rw [stored]
  simp [cursorFields, Json.get, lookup_cons, Json.asStr?, Json.asInt?]

variable {place : Nat × Nat} {entries : List Json} {pieces : List Piece}

theorem appendBatch_planned {current : Fingerprints} (planned : Planned host docs project pieces)
    (stored : project.get? "episodes" = some (.list entries))
    (drafted : Drafted docs call (reached pieces) place doc) :
    Planned host docs (appendBatch host around current project entries call)
      (pieces ++ Drafted.pieces place call) := by
  obtain ⟨others, othersStored, recorded⟩ := planned.recorded
  rw [stored] at othersStored
  cases othersStored
  have added : Recorded host docs (0 + entries.length)
      (newEntries host around entries call) (Drafted.pieces place call) := by
    apply drafted.recorded
    rw [recorded.keptItems_eq, recorded.nextNum_eq, recorded.length_eq, Nat.zero_add]
  have all := recorded.append added
  obtain ⟨last, isLast, lastFile, lastStop⟩ := drafted.getLast?_pieces pieces
  constructor
  · refine ⟨entries ++ newEntries host around entries call, ?_, all⟩
    unfold appendBatch
    rw [Dict.get?_put, if_neg (by decide), Dict.get?_put, if_neg (by decide),
      Dict.get?_put, if_pos rfl, recorded.keptItems_eq,
      all.sortEpisodesIfPossible_eq]
  · rw [isLast, bind_some, lastFile, drafted.placed.found, map_some, lastStop]
    apply planningCursor_dict
    unfold appendBatch
    rw [value_put, if_neg (by decide), value_put, if_pos rfl, planCursor,
      drafted.placed.sourceRel, drafted.lastEnd_eq]
  · have atEnd : reached (pieces ++ Drafted.pieces place call) =
        (place.1, Drafted.lastStop place call) := by
      unfold reached
      rw [isLast]
      exact Prod.ext lastFile lastStop
    rw [map_append, atEnd]
    exact planned.chain.append drafted.chain

variable {origin : Nat × Nat}

theorem prepareBatch_planned {prepared : Project × PlanResult}
    (planned : Planned host (discoverSources host folder) project pieces)
    (drafted : Drafted (discoverSources host folder) call origin place doc)
    (result : prepareBatch host around folder project call = .ok prepared) :
    Planned host (discoverSources host folder) prepared.1 (pieces ++ Drafted.pieces place call) ∧
      prepared.1.value sourceFingerprintsKey = .dict (fingerprintFields
        (computeSourceFingerprints host (discoverSources host folder))) ∧
      Planned.FilesKnown folder pieces := by
  unfold prepareBatch at result
  obtain ⟨_, checked, rest⟩ := bind_eq_ok.mp result
  obtain ⟨place', started, rest⟩ := bind_eq_ok.mp rest
  obtain ⟨_, sameStart, rest⟩ := bind_eq_ok.mp rest
  obtain ⟨_, _, rest⟩ := bind_eq_ok.mp rest
  obtain ⟨_, _, rest⟩ := bind_eq_ok.mp rest
  obtain ⟨items, isItems, rest⟩ := bind_eq_ok.mp rest
  cases rest
  have known := planned.filesKnown_of_checked checked
  have healed : Planned host (discoverSources host folder)
      (registerOrphanEpisodeEntries host around folder project) pieces :=
    planned.register known
  -- a batch is accepted where it was drafted for the end of the ledger
  obtain ⟨originDoc, originFound, refEq⟩ := drafted.startRef
  obtain ⟨reachedDoc, reachedFound, placeEq⟩ := healed.effectiveStart_eq started
  rw [require_eq_ok.mp sameStart, refEq, Prod.mk.injEq] at placeEq
  obtain ⟨samePath, sameOffset⟩ := placeEq
  obtain rfl : origin = reached pieces :=
    Prod.ext (index_unique (sources_distinct host folder) originFound
      reachedFound samePath) (by exact_mod_cast sameOffset)
  obtain ⟨entries, stored, _⟩ := healed.recorded
  rw [Planned.itemsOf_eq stored] at isItems
  cases isItems
  refine ⟨appendBatch_planned healed stored drafted, ?_, known⟩
  unfold appendBatch
  rw [value_put, if_pos rfl]

variable {cached : String × Text}

theorem plannedWrite_name {entry : Json} {write : String × Text}
    (planned : plannedWrite host around folder cached entry = .ok (some write)) :
    ∃ num, entryNum host entry = some num ∧ write.1 = derivedFileName num := by
  unfold plannedWrite at planned
  repeat' split at planned
  · cases planned
  · cases planned
  · rename_i num isNum _ _ _ _ _ _ _ _
    refine ⟨num, isNum, ?_⟩
    obtain ⟨text, _, rest⟩ := bind_eq_ok.mp planned
    obtain ⟨_, _, rest⟩ := bind_eq_ok.mp rest
    obtain ⟨_, _, rest⟩ := bind_eq_ok.mp rest
    cases rest
    rfl
  all_goals cases planned

theorem Recorded.writes {writes : List (Option (String × Text))}
    (recorded : Recorded host docs 0 entries pieces)
    (planned : entries.mapM (plannedWrite host around folder cached) = .ok writes) :
    ∀ write ∈ writes.reduceOption, ∃ num, 1 ≤ num ∧ num ≤ pieces.length ∧
      episodeFileNum write.1 = some num := by
  intro write member
  have listed := reduceOption_mem_iff.mp member
  obtain ⟨entry, isEntry, isWrite⟩ := mapM_eq_ok_mem planned listed
  obtain ⟨num, isNum, nameEq⟩ := plannedWrite_name isWrite
  obtain ⟨position, inside, positionNum⟩ := recorded.num_of_mem isEntry
  rw [isNum] at positionNum
  cases positionNum
  refine ⟨position + 1, Nat.le_add_left 1 position, inside, ?_⟩
  have castEq : ((0 : Nat) : Int) + position + 1 = ((position + 1 : Nat) : Int) := by
    push_cast
    omega
  rw [nameEq, castEq, episodeFileNum_derivedFileName]

theorem reconcileDerivedFiles_files (recorded : Recorded host docs 0 entries pieces) {num : Nat}
    (present : HasFile (reconcileDerivedFiles host around folder entries cached).1 num) :
    HasFile folder num ∨ 1 ≤ num ∧ num ≤ pieces.length := by
  unfold reconcileDerivedFiles at present
  split at present
  · exact Or.inl present
  · split at present
    · exact Or.inl present
    · rename_i writes planned
      have written : HasFile (folder.writeAll writes.reduceOption).1 num := by
        split at present
        · rename_i after stopped
          rw [stopped]
          exact present
        · rename_i after finished
          rw [finished]
          exact (present.of_subset unlinkRemaining_subset).of_subset unlinkLeftovers_subset
      rcases written.of_writeAll with earlier | ⟨write, member, isNum⟩
      · exact Or.inl earlier
      · obtain ⟨other, positive, atMost, isOther⟩ :=
          recorded.writes planned write member
        rw [isNum] at isOther
        cases isOther
        exact Or.inr ⟨positive, atMost⟩

/-- What reconciling recorded entries can do to the folder. -/
structure Reconciled (host : Host) (before after : SourceFolder) : Prop where
  sources : SameSources host before after
  files : ∀ num, HasFile after num → HasFile before num ∨ 1 ≤ num

theorem reconcileDerivedFiles_sources (recorded : Recorded host docs 0 entries pieces) :
    SameSources host folder (reconcileDerivedFiles host around folder entries cached).1 := by
  unfold reconcileDerivedFiles
  split
  · exact refl folder
  · split
    · exact refl folder
    · rename_i writes planned
      have off : ∀ write ∈ writes.reduceOption, OffSource write.1 := by
        intro write member
        obtain ⟨num, _, _, isNum⟩ := recorded.writes planned write member
        left
        rw [isNum]
        rfl
      have written : SameSources host folder
          (folder.writeAll writes.reduceOption).1 := writeAll off
      split
      · rename_i after stopped
        rw [stopped] at written
        exact written
      · rename_i after finished
        rw [finished] at written
        exact (written.trans (unlinkLeftovers_sameSources after _)).trans
          (unlinkRemaining _)

/-- A commit that goes through, as the rest of the development uses it. -/
structure Committed (host : Host) (folder after : SourceFolder)
    (next : Project) (pieces added : List Piece) : Prop where
  planned : Planned host (discoverSources host folder) next (pieces ++ added)
  fingerprints : next.value sourceFingerprintsKey = .dict (fingerprintFields
    (computeSourceFingerprints host (discoverSources host folder)))
  known : Planned.FilesKnown folder pieces
  notLink : folder.isLink = false

theorem commitBatch_folder (host : Host) (around : Surroundings)
    (folder : SourceFolder) (project : Project) (call : PlanCall) :
    (commitBatch host around folder project call).1 = folder ∨
      ∃ prepared, prepareBatch host around folder project call = .ok prepared ∧
        (commitBatch host around folder project call).1 =
          (reconcileDerivedFiles host around folder (rawEpisodes prepared.1)
            (call.place.sourceRel, call.place.text)).1 := by
  unfold commitBatch
  split
  · exact Or.inl rfl
  · rename_i prepared isPrepared
    right
    refine ⟨prepared, isPrepared, ?_⟩
    split
    · rename_i after failure outcome
      rw [outcome]
    · rename_i after outcome
      rw [outcome]

variable (planned : Planned host (discoverSources host folder) project pieces)
include planned

section

variable (drafted : Drafted (discoverSources host folder) call origin place doc)
include drafted

theorem commitBatch_reconciled : Reconciled host folder
      (commitBatch host around folder project call).1 := by
  rcases commitBatch_folder host around folder project call with
    untouched | ⟨prepared, isPrepared, written⟩
  · rw [untouched]
    exact
      { sources := refl folder
        files := fun _ present => Or.inl present }
  · obtain ⟨next, _, _⟩ := prepareBatch_planned planned drafted isPrepared
    obtain ⟨entries, stored, recorded⟩ := next.recorded
    rw [written, rawEpisodes_eq stored]
    constructor
    · exact reconcileDerivedFiles_sources recorded
    · intro num present
      rcases reconcileDerivedFiles_files recorded present with
        earlier | ⟨positive, _⟩
      · exact Or.inl earlier
      · exact Or.inr positive

theorem commitBatch_committed {after : SourceFolder} {next : Project × PlanResult}
    (result : commitBatch host around folder project call = (after, .ok next)) :
    Committed host folder after next.1 pieces (Drafted.pieces place call) := by
  unfold commitBatch at result
  split at result
  · cases result
  · rename_i prepared isPrepared
    obtain ⟨plannedNext, fingerprints, known⟩ := prepareBatch_planned planned drafted isPrepared
    split at result <;> cases result
    rename_i written reconciled
    exact
      { planned := plannedNext
        fingerprints := fingerprints
        known := known
        notLink := by
          unfold reconcileDerivedFiles at reconciled
          split at reconciled
          · cases reconciled
          · next notLink => exact Bool.eq_false_iff.mpr notLink }

end

end MatrixSpooll.Episode
