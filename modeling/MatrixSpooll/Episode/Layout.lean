import MatrixSpooll.Episode.Folder
import MatrixSpooll.Library.Chain

/-!
# The ledger as a chain of pieces

Seen from above, the ledger is a list of pieces of the sources, each by the
index of its file, laid end to end from the beginning.  `Planned` says that a
project's ledger records such a list and that its cursor stands at the end of
the last piece.
-/

namespace MatrixSpooll.Episode

open Library List

structure Piece where
  file : Nat
  start : Nat
  stop : Nat

def Piece.segment (piece : Piece) : Segment (Nat ×ₗ Nat) :=
  { start := toLex (piece.file, piece.start)
    stop := toLex (piece.file, piece.stop) }

def texts (docs : List SourceDoc) : List Text := docs.map SourceDoc.text

theorem getElem?_texts {docs : List SourceDoc} {index : Nat}
    {doc : SourceDoc} (found : docs[index]? = some doc) : (texts docs)[index]? = some doc.text := by
  unfold texts
  rw [getElem?_map, found]
  rfl

/-- Where the next piece may begin. -/
def Follows (docs : List SourceDoc) (first second : Nat ×ₗ Nat) : Prop :=
  ReadsOn isSpace (texts docs) (ofLex first) (ofLex second)

/-- The end of the last piece, or the beginning of everything. -/
def reached (pieces : List Piece) : Nat × Nat :=
  match pieces.getLast? with
  | none => (0, 0)
  | some piece => (piece.file, piece.stop)

/-- The entry at `index` records the piece. -/
structure Records (host : Host) (docs : List SourceDoc) (index : Nat)
    (entry : Json) (piece : Piece) : Prop where
  num : entryNum host entry = some ((index : Int) + 1)
  range : ∃ doc, docs[piece.file]? = some doc ∧ parseSourceRange entry =
      some (doc.relPath, (piece.start : Int), (piece.stop : Int)) ∧
    piece.stop ≤ doc.text.length

inductive Recorded (host : Host) (docs : List SourceDoc) : Nat → List Json → List Piece → Prop where
  | nil (index : Nat) : Recorded host docs index [] []
  | cons {index : Nat} {entry : Json} {piece : Piece} {entries : List Json}
      {pieces : List Piece} :
      Records host docs index entry piece →
      Recorded host docs (index + 1) entries pieces →
      Recorded host docs index (entry :: entries) (piece :: pieces)

namespace Recorded

variable {host : Host} {docs : List SourceDoc}
  {index : Nat} {entries : List Json} {pieces : List Piece}

theorem length_eq (recorded : Recorded host docs index entries pieces) :
    entries.length = pieces.length := by
  induction recorded with
  | nil => rfl
  | cons _ _ induction => exact congrArg Nat.succ induction

theorem append {front back : List Json} {frontPieces backPieces : List Piece}
    (first : Recorded host docs index front frontPieces)
    (second : Recorded host docs (index + front.length) back backPieces) :
    Recorded host docs index (front ++ back) (frontPieces ++ backPieces) := by
  induction first with
  | nil => simpa using second
  | cons head _ induction =>
    apply Recorded.cons head
    apply induction
    rw [length_cons] at second
    rw [Nat.add_right_comm, Nat.add_assoc]
    exact second

section

variable (recorded : Recorded host docs index entries pieces)
include recorded

theorem take (count : Nat) : Recorded host docs index (entries.take count) (pieces.take count) := by
  induction recorded generalizing count with
  | nil index =>
    rw [take_nil, take_nil]
    exact .nil index
  | @cons index entry piece entries pieces head _ induction =>
    cases count with
    | zero => exact .nil index
    | succ count => exact .cons head (induction count)

theorem getElem? {position : Nat} {piece : Piece} (found : pieces[position]? = some piece) :
    ∃ entry, entries[position]? = some entry ∧
      Records host docs (index + position) entry piece := by
  induction recorded generalizing position with
  | nil => cases found
  | @cons index entry head entries pieces isRecord _ induction =>
    cases position with
    | zero =>
      rw [getElem?_cons_zero] at found
      cases found
      exact ⟨entry, getElem?_cons_zero, isRecord⟩
    | succ position =>
      rw [getElem?_cons_succ] at found
      obtain ⟨other, stored, later⟩ := induction found
      refine ⟨other, ?_, ?_⟩
      · rw [getElem?_cons_succ]
        exact stored
      · rw [Nat.add_right_comm] at later
        exact later

theorem record_at {position : Nat} {entry : Json} (stored : entries[position]? = some entry) :
    ∃ piece, pieces[position]? = some piece ∧ Records host docs (index + position) entry piece := by
  have inside : position < pieces.length := by
    rw [← recorded.length_eq]
    exact (List.getElem?_eq_some_iff.mp stored).1
  have found := getElem?_eq_getElem inside
  obtain ⟨other, otherStored, isRecord⟩ := recorded.getElem? found
  rw [stored] at otherStored
  cases otherStored
  exact ⟨_, found, isRecord⟩

theorem num_of_mem {entry : Json} (member : entry ∈ entries) :
    ∃ position, position < pieces.length ∧
      entryNum host entry = some ((index : Int) + position + 1) := by
  obtain ⟨position, stored⟩ := getElem?_of_mem member
  obtain ⟨piece, found, isRecord⟩ := recorded.record_at stored
  refine ⟨position, (List.getElem?_eq_some_iff.mp found).1, ?_⟩
  rw [isRecord.num]
  push_cast
  rfl

theorem range_of_mem {entry : Json} (member : entry ∈ entries) :
    (parseSourceRange entry).isSome = true := by
  obtain ⟨position, stored⟩ := getElem?_of_mem member
  obtain ⟨piece, _, isRecord⟩ := recorded.record_at stored
  obtain ⟨doc, _, parsed, _⟩ := isRecord.range
  rw [parsed]
  rfl

theorem filterMap_num : entries.filterMap (entryNum host) = (range' index pieces.length).map
        (fun position : Nat => (position : Int) + 1) := by
  induction recorded with
  | nil => rfl
  | cons head _ induction =>
    rw [filterMap_cons_some head.num, induction, length_cons, range'_succ, map_cons]

theorem map_num : entries.map (entryNum host) = (range' index pieces.length).map
      (fun position : Nat => some ((position : Int) + 1)) := by
  induction recorded with
  | nil => rfl
  | cons head _ induction =>
    rw [map_cons, head.num, induction, length_cons, range'_succ, map_cons]

end

theorem mem_nums_iff (recorded : Recorded host docs 0 entries pieces) {num : Int} :
    num ∈ entries.filterMap (entryNum host) ↔ 1 ≤ num ∧ num ≤ pieces.length := by
  rw [recorded.filterMap_num, mem_map]
  constructor
  · intro listed
    obtain ⟨position, member, numEq⟩ := listed
    have bounds := mem_range'_1.mp member
    omega
  · intro bounds
    refine ⟨(num - 1).toNat, mem_range'_1.mpr ?_, ?_⟩
    all_goals omega

section

variable (recorded : Recorded host docs index entries pieces)
include recorded

theorem sorted : entries.Pairwise (fun first second =>
      numOrZero host first ≤ numOrZero host second) := by
  induction recorded with
  | nil => exact Pairwise.nil
  | cons head rest induction =>
    apply pairwise_cons.mpr
    refine ⟨?_, induction⟩
    intro other member
    obtain ⟨position, _, otherNum⟩ := rest.num_of_mem member
    have headEq : numOrZero host _ = _ := congrArg (Option.getD · 0) head.num
    have otherEq : numOrZero host other = _ := congrArg (Option.getD · 0) otherNum
    rw [headEq, otherEq]
    simp only [Option.getD_some]
    push_cast
    omega

theorem sortEpisodesIfPossible_eq : sortEpisodesIfPossible host entries = entries := by
  have readable : entries.all (fun entry => (entryNum host entry).isSome) = true := by
    apply all_eq_true.mpr
    intro entry member
    obtain ⟨position, _, num⟩ := recorded.num_of_mem member
    rw [num]
    rfl
  unfold sortEpisodesIfPossible
  rw [if_pos readable]
  exact recorded.sorted.insertionSort_eq

theorem keptItems_eq : keptItems entries = entries := by
  apply filter_eq_self.mpr
  intro entry member
  obtain ⟨_, _, num⟩ := recorded.num_of_mem member
  cases entry with
  | null => cases num
  | _ => rfl

end

theorem nextNum_eq (recorded : Recorded host docs 0 entries pieces) :
    nextNum host entries = (pieces.length : Int) + 1 := by
  have positive : (entries.filterMap (entryNum host)).filter
      (fun num => decide (0 < num)) = entries.filterMap (entryNum host) := by
    apply filter_eq_self.mpr
    intro num member
    have bounds := recorded.mem_nums_iff.mp member
    exact decide_eq_true (by omega)
  have greatest : ∀ count : Nat, ((range' 0 count).map
      (fun position : Nat => (position : Int) + 1)).foldl max 0 = (count : Int) := by
    intro count
    induction count with
    | zero => rfl
    | succ count induction =>
      have larger : (count : Int) ≤ count + 1 := by omega
      rw [range'_concat, map_append, foldl_append, induction]
      simp [larger]
  unfold nextNum
  rw [positive, recorded.filterMap_num, greatest]

end Recorded

variable {entry : Json}

theorem rangeEnd_of_parseSourceRange {file : String} {start stop : Int}
    (parsed : parseSourceRange entry = some (file, start, stop)) :
    rangeEnd entry = some (file, stop) := by
  unfold parseSourceRange at parsed
  repeat' split at parsed
  all_goals cases parsed
  next rangeEq _ _ _ isFile _ isStop => simp only [rangeEnd, rangeEq, isFile, isStop]

variable {host : Host}

theorem Recorded.foldl_laterEnd {docs : List SourceDoc}
    {index : Nat} {entries : List Json} {pieces : List Piece}
    (recorded : Recorded host docs index entries pieces) (best : Option (Int × String × Int))
    (below : ∀ found ∈ best, found.1 ≤ (index : Int)) :
    match pieces.getLast? with
    | none => entries.foldl (laterEnd host) best = best
    | some piece => ∃ num doc, docs[piece.file]? = some doc ∧
        entries.foldl (laterEnd host) best = some (num, doc.relPath, (piece.stop : Int)) := by
  induction recorded generalizing best with
  | nil => rfl
  | @cons index entry piece entries pieces head rest induction =>
    obtain ⟨doc, docFound, parsed, _⟩ := head.range
    have isEnd := rangeEnd_of_parseSourceRange parsed
    have taken : laterEnd host best entry =
        some ((index : Int) + 1, doc.relPath, (piece.stop : Int)) := by
      unfold laterEnd
      rw [head.num, isEnd]
      cases best with
      | none => rfl
      | some found =>
        have smaller := below found rfl
        exact if_pos (by omega)
    have bounded : ∀ found ∈ some ((index : Int) + 1, doc.relPath,
        (piece.stop : Int)), found.1 ≤ ((index + 1 : Nat) : Int) := by
      intro found isFound
      cases isFound
      push_cast
      exact le_refl _
    have later := induction _ bounded
    rw [foldl_cons, taken]
    cases pieces with
    | nil => exact ⟨_, doc, docFound, later⟩
    | cons next pieces =>
      rw [getLast?_cons_cons]
      exact later

theorem value_put (project : Project) (key other : String) (value : Json) :
    Project.value (project.put key value) other =
      if other = key then value else project.value other := by
  unfold Project.value
  rw [Dict.get?_put]
  split <;> rfl

/-- The project's ledger records the pieces, and they lie end to end. -/
structure Planned (host : Host) (docs : List SourceDoc) (project : Project)
    (pieces : List Piece) : Prop where
  recorded : ∃ entries, project.get? "episodes" = some (.list entries) ∧
    Recorded host docs 0 entries pieces
  cursor : planningCursor project = pieces.getLast?.bind (fun piece =>
    (docs[piece.file]?).map (fun doc => (doc.relPath, (piece.stop : Int))))
  chain : Chained (Follows docs) (toLex (0, 0)) (pieces.map Piece.segment) (toLex (reached pieces))

theorem rawEpisodes_eq {project : Project} {entries : List Json}
    (stored : project.get? "episodes" = some (.list entries)) :
    rawEpisodes project = entries := by
  unfold rawEpisodes Project.value
  rw [stored]
  rfl

theorem planningCursor_congr {before after : Project}
    (same : after.value "planning_cursor" = before.value "planning_cursor") :
    planningCursor after = planningCursor before := by
  unfold planningCursor
  rw [same]

namespace Planned

variable {host : Host} {docs : List SourceDoc} {project : Project} {pieces : List Piece}

theorem congr {after : Project} (planned : Planned host docs project pieces)
    (episodes : after.get? "episodes" = project.get? "episodes")
    (cursor : after.value "planning_cursor" = project.value "planning_cursor") :
    Planned host docs after pieces :=
  { recorded := by
      rw [episodes]
      exact planned.recorded
    cursor := (planningCursor_congr cursor).trans planned.cursor
    chain := planned.chain }

theorem itemsOf_eq {entries : List Json} (stored : project.get? "episodes" = some (.list entries)) :
    itemsOf project = .ok entries := by
  unfold itemsOf Project.value
  rw [stored, Option.getD_some, Json.itemsOrEmpty_list]

variable (planned : Planned host docs project pieces)
include planned

theorem effectiveStart_last {piece : Piece} (final : pieces.getLast? = some piece) :
    ∃ doc, docs[piece.file]? = some doc ∧ effectiveStart host docs project =
        .ok (doc.relPath, (piece.stop : Int)) := by
  obtain ⟨entries, stored, recorded⟩ := planned.recorded
  have last := recorded.foldl_laterEnd none nofun
  have cursor := planned.cursor
  rw [final] at last cursor
  obtain ⟨num, doc, docFound, lastEq⟩ := last
  rw [Option.bind_some, docFound, Option.map_some] at cursor
  refine ⟨doc, docFound, ?_⟩
  unfold effectiveStart
  rw [itemsOf_eq stored]
  simp [bind, Except.bind, lastEq, cursor, laterPlace]

theorem effectiveStart_first (final : pieces.getLast? = none) {place : String × Int} :
    effectiveStart host docs project = .ok place ↔
      ∃ first, docs[0]? = some first ∧ place = (first.relPath, 0) := by
  obtain ⟨entries, stored, recorded⟩ := planned.recorded
  have last := recorded.foldl_laterEnd none nofun
  have cursor := planned.cursor
  rw [final] at last cursor
  unfold effectiveStart
  rw [itemsOf_eq stored]
  simp only [bind, Except.bind, last, cursor, Option.bind_none]
  cases docs <;> simp [eq_comm]

theorem effectiveStart_eq {place : String × Int}
    (result : effectiveStart host docs project = .ok place) :
    ∃ doc, docs[(reached pieces).1]? = some doc ∧
      place = (doc.relPath, ((reached pieces).2 : Int)) := by
  cases final : pieces.getLast? with
  | some piece =>
    obtain ⟨doc, docFound, startEq⟩ := planned.effectiveStart_last final
    rw [startEq] at result
    cases result
    unfold reached
    rw [final]
    exact ⟨doc, docFound, rfl⟩
  | none =>
    unfold reached
    rw [final]
    exact (planned.effectiveStart_first final).mp result

end Planned

theorem mem_orphanNums {folder : SourceFolder} {episodes : List Json} {num : Nat} :
    num ∈ orphanNums host folder episodes ↔ HasFile folder num ∧
        (num : Int) ∉ episodes.filterMap (entryNum host) := by
  unfold orphanNums
  rw [mem_filter, mem_insertionSort, mem_discoverEpisodeFiles, decide_eq_true_eq]

theorem parseSourceRange_orphanEntry (around : Surroundings) (num : Int) :
    parseSourceRange (orphanEntry around num) = none := by
  unfold orphanEntry
  simp [parseSourceRange, Json.get, lookup_cons]

theorem entryNum_orphanEntry (host : Host) (around : Surroundings)
    (num : Int) : entryNum host (orphanEntry around num) = some num := by
  unfold orphanEntry
  simp [entryNum, Json.get, parseEpisodeNum]

theorem mem_sortEpisodesIfPossible {episodes : List Json} :
    entry ∈ sortEpisodesIfPossible host episodes ↔ entry ∈ episodes := by
  unfold sortEpisodesIfPossible
  split
  · exact mem_insertionSort _
  · exact Iff.rfl

namespace Planned

variable {host : Host} {docs : List SourceDoc} {project : Project}
  {pieces : List Piece} {around : Surroundings} {folder : SourceFolder}

/-- Every derived file belongs to a recorded episode. -/
def FilesKnown (folder : SourceFolder) (pieces : List Piece) : Prop :=
  ∀ num, HasFile folder num → 1 ≤ num ∧ num ≤ pieces.length

theorem register_eq {entries : List Json} (stored : project.get? "episodes" = some (.list entries))
    (recorded : Recorded host docs 0 entries pieces) (known : FilesKnown folder pieces) :
    registerOrphanEpisodeEntries host around folder project =
      project.put "episodes" (.list entries) := by
  have noOrphan : orphanNums host folder entries = [] := by
    apply eq_nil_iff_forall_not_mem.mpr
    intro num member
    obtain ⟨present, unknown⟩ := mem_orphanNums.mp member
    apply unknown
    have bounds := known num present
    exact recorded.mem_nums_iff.mpr (by omega)
  unfold registerOrphanEpisodeEntries
  rw [stored, Option.getD_some]
  simp only [noOrphan, map_nil, append_nil]
  rw [recorded.sortEpisodesIfPossible_eq]

variable (planned : Planned host docs project pieces)
include planned

/-- The range check passes only if there was no orphan to register. -/
theorem filesKnown_of_checked {value : Unit} (checked : checkSourceRanges host
      (registerOrphanEpisodeEntries host around folder project) = .ok value) :
    FilesKnown folder pieces := by
  obtain ⟨entries, stored, recorded⟩ := planned.recorded
  have complete := require_eq_ok.mp checked
  intro num present
  by_contra outside
  have unknown : (num : Int) ∉ entries.filterMap (entryNum host) := by
    intro member
    have bounds := recorded.mem_nums_iff.mp member
    omega
  have isOrphan := mem_orphanNums.mpr ⟨present, unknown⟩
  have member : orphanEntry around num ∈ rawEpisodes
      (registerOrphanEpisodeEntries host around folder project) := by
    unfold registerOrphanEpisodeEntries
    rw [stored, Option.getD_some]
    simp only [rawEpisodes, value_put, if_true]
    rw [mem_sortEpisodesIfPossible]
    apply mem_append_right
    exact mem_map.mpr ⟨num, isOrphan, rfl⟩
  -- an entry without a range closes the ledger to planning
  unfold episodesWithoutSourceRange at complete
  apply not_mem_nil (a := (num : Int))
  rw [← complete, mem_insertionSort, mem_dedup, mem_filterMap]
  refine ⟨_, member, ?_⟩
  rw [parseSourceRange_orphanEntry]
  exact entryNum_orphanEntry host around num

theorem register (known : FilesKnown folder pieces) : Planned host docs
      (registerOrphanEpisodeEntries host around folder project) pieces := by
  obtain ⟨entries, stored, recorded⟩ := planned.recorded
  rw [register_eq stored recorded known]
  apply planned.congr
  · rw [Dict.get?_put, if_pos rfl, stored]
  · rw [value_put, if_neg (by decide)]

theorem checkSourceRanges_eq : checkSourceRanges host project = .ok () := by
  obtain ⟨entries, stored, recorded⟩ := planned.recorded
  have storedValue : project.value "episodes" = .list entries := by
    unfold Project.value
    rw [stored, Option.getD_some]
  have none : (rawEpisodes project).filterMap (fun entry =>
      if (parseSourceRange entry).isNone then entryNum host entry else none) = [] := by
    apply filterMap_eq_nil_iff.mpr
    intro entry member
    rw [rawEpisodes, storedValue] at member
    have present : (parseSourceRange entry).isNone = false :=
      Option.isNone_eq_false_iff.mpr (recorded.range_of_mem member)
    rw [present]
    rfl
  unfold checkSourceRanges episodesWithoutSourceRange
  rw [none]
  rfl

end Planned

end MatrixSpooll.Episode
