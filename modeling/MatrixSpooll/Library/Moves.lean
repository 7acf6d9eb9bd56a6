import MatrixSpooll.Library.Listing

/-!
# Sequences of file moves

A move takes a file to another place and replaces what was there; it does
nothing where the file is missing.  A sequence of moves is unobstructed when
no move replaces another file.  Exactly then every file is kept, and
`relocate` says where it is.
-/

namespace MatrixSpooll.Library

open List Listing

variable {Place Content : Type} [LinearOrder Place] (files : Listing Place Content)

/-- `if source.exists(): os.replace(source, destination)`. -/
def moveFile (move : Place × Place) : Listing Place Content :=
  match files.get? move.1 with
  | none => files
  | some content => (files.remove move.1).put move.2 content

def moveFiles (moves : List (Place × Place)) : Listing Place Content :=
  moves.foldl moveFile files

/-- Where one move takes a file. -/
def relocateBy (move : Place × Place) (place : Place) : Place :=
  if place = move.1 then move.2 else place

/-- Where the moves take a file. -/
def relocate (moves : List (Place × Place)) (place : Place) : Place :=
  moves.foldl (fun place move => relocateBy move place) place

/-- No other file is at the destination of the move. -/
def MoveFree (move : Place × Place) : Prop :=
  files.get? move.1 = none ∨ move.1 = move.2 ∨ files.get? move.2 = none

/-- No move replaces another file. -/
def Unobstructed : Listing Place Content → List (Place × Place) → Prop
  | _, [] => True
  | files, move :: moves => MoveFree files move ∧ Unobstructed (moveFile files move) moves

variable {files : Listing Place Content} {move : Place × Place}

theorem moveFile_of_missing (missing : files.get? move.1 = none) : moveFile files move = files := by
  simp [moveFile, missing]

variable {content : Content}

theorem get?_moveFile (present : files.get? move.1 = some content)
    (place : Place) : (moveFile files move).get? place =
      if place = move.2 then some content
      else if place = move.1 then none else files.get? place := by
  simp [moveFile, present, get?_put, get?_remove]

/-- A free move takes every file to its new place, and nothing else. -/
theorem get?_moveFile_iff (free : MoveFree files move) {place : Place} :
    (moveFile files move).get? place = some content ↔ ∃ origin, files.get? origin = some content ∧
        relocateBy move origin = place := by
  cases present : files.get? move.1 with
  | none =>
    rw [moveFile_of_missing present]
    constructor
    · intro found
      refine ⟨place, found, if_neg ?_⟩
      intro same
      simp [same, present] at found
    · intro moved
      obtain ⟨origin, found, same⟩ := moved
      have different : origin ≠ move.1 := by
        intro isSource
        simp [isSource, present] at found
      rw [relocateBy, if_neg different] at same
      exact same ▸ found
  | some moved =>
    rw [get?_moveFile present]
    constructor
    · intro found
      split at found
      case isTrue atTarget =>
        exact ⟨move.1, present.trans found, (if_pos rfl).trans atTarget.symm⟩
      case isFalse =>
        split at found
        · cases found
        case isFalse elsewhere => exact ⟨place, found, if_neg elsewhere⟩
    · intro origin
      obtain ⟨origin, found, same⟩ := origin
      by_cases isSource : origin = move.1
      · subst isSource
        rw [relocateBy, if_pos rfl] at same
        rw [if_pos same.symm]
        exact present.symm.trans found
      · rw [relocateBy, if_neg isSource] at same
        subst same
        have elsewhere : origin ≠ move.2 := by
          intro atTarget
          rcases free with missing | still | empty
          · simp [present] at missing
          · exact isSource (atTarget.trans still.symm)
          · simp [atTarget, empty] at found
        rw [if_neg elsewhere, if_neg isSource]
        exact found

variable {moves : List (Place × Place)}

/-- Unobstructed moves take every file to its new place, and nothing else. -/
theorem get?_moveFiles_iff (free : Unobstructed files moves) {place : Place} :
    (moveFiles files moves).get? place = some content ↔ ∃ origin, files.get? origin = some content ∧
        relocate moves origin = place := by
  induction moves generalizing files with
  | nil => simp [moveFiles, relocate]
  | cons move moves induction =>
    show (moveFiles (moveFile files move) moves).get? place = _ ↔ _
    rw [induction free.2]
    constructor
    · intro later
      obtain ⟨middle, found, same⟩ := later
      obtain ⟨origin, atOrigin, isMiddle⟩ := (get?_moveFile_iff free.1).mp found
      subst isMiddle
      exact ⟨origin, atOrigin, same⟩
    · intro start
      obtain ⟨origin, atOrigin, same⟩ := start
      exact ⟨relocateBy move origin, (get?_moveFile_iff free.1).mpr ⟨origin, atOrigin, rfl⟩, same⟩

theorem relocateBy_injOn (free : MoveFree files move) :
    Set.InjOn (relocateBy move) files.names := by
  intro first firstPresent second secondPresent same
  obtain ⟨firstContent, atFirst⟩ := mem_names.mp firstPresent
  obtain ⟨secondContent, atSecond⟩ := mem_names.mp secondPresent
  unfold relocateBy at same
  -- a free move leaves no file at its destination but the moved one
  split at same <;> split at same
  case isTrue.isTrue isSource isSource' => exact isSource.trans isSource'.symm
  case isTrue.isFalse isSource other =>
    rcases free with missing | still | empty
    · simp [← isSource, atFirst] at missing
    · exact isSource.trans (still.trans same)
    · simp [same, atSecond] at empty
  case isFalse.isTrue other isSource =>
    rcases free with missing | still | empty
    · simp [← isSource, atSecond] at missing
    · exact same.trans (still.symm.trans isSource.symm)
    · simp [← same, atFirst] at empty
  case isFalse.isFalse => exact same

theorem relocate_injOn (free : Unobstructed files moves) :
    Set.InjOn (relocate moves) files.names := by
  induction moves generalizing files with
  | nil =>
    intro first _ second _ same
    exact same
  | cons move moves induction =>
    have moved : ∀ place ∈ files.names, relocateBy move place ∈ (moveFile files move).names := by
      intro place present
      obtain ⟨content, found⟩ := mem_names.mp present
      exact mem_names.mpr ⟨content, (get?_moveFile_iff free.1).mpr ⟨place, found, rfl⟩⟩
    intro first firstPresent second secondPresent same
    apply relocateBy_injOn free.1 firstPresent secondPresent
    exact induction free.2 (moved first firstPresent) (moved second secondPresent) same

/-! ## Moves that are made again -/

theorem get?_moveFiles_of_missing {source : Place} (missing : files.get? source = none)
    (apart : ∀ move ∈ moves, move.2 ≠ source) : (moveFiles files moves).get? source = none := by
  induction moves generalizing files with
  | nil => exact missing
  | cons move moves induction =>
    obtain ⟨here, later⟩ := forall_mem_cons.mp apart
    show (moveFiles (moveFile files move) moves).get? source = none
    refine induction ?_ later
    cases present : files.get? move.1 with
    | none =>
      rw [moveFile_of_missing present]
      exact missing
    | some content =>
      rw [get?_moveFile present, if_neg (Ne.symm here), missing]
      simp

theorem get?_moveFiles_source (apart : ∀ first ∈ moves, ∀ second ∈ moves, first.2 ≠ second.1)
    (member : move ∈ moves) : (moveFiles files moves).get? move.1 = none := by
  obtain ⟨before, after, rfl⟩ := append_of_mem member
  unfold moveFiles
  rw [foldl_append, foldl_cons]
  apply get?_moveFiles_of_missing
  · cases present : (foldl moveFile files before).get? move.1 with
    | none =>
      rw [moveFile_of_missing present]
      exact present
    | some content =>
      rw [get?_moveFile present, if_neg (Ne.symm (apart move member move member)), if_pos rfl]
  · intro later listed
    exact apart later (mem_append_right _ (mem_cons_of_mem _ listed)) move member

theorem moveFiles_of_missing (missing : ∀ move ∈ moves, files.get? move.1 = none) :
    moveFiles files moves = files := by
  induction moves with
  | nil => rfl
  | cons move moves induction =>
    obtain ⟨here, later⟩ := forall_mem_cons.mp missing
    show moveFiles (moveFile files move) moves = files
    rw [moveFile_of_missing here, induction later]

/-- Moves that were cut off can be made again from the start. -/
theorem moveFiles_resume {done left : List (Place × Place)}
    (apart : ∀ first ∈ done ++ left, ∀ second ∈ done ++ left,
      first.2 ≠ second.1) :
    moveFiles (moveFiles files done) (done ++ left) = moveFiles files (done ++ left) := by
  have again : moveFiles (moveFiles files done) done = moveFiles files done := by
    apply moveFiles_of_missing
    intro move member
    refine get?_moveFiles_source ?_ member
    intro first firstDone second secondDone
    exact apart first (mem_append_left _ firstDone) second (mem_append_left _ secondDone)
  have split : ∀ start : Listing Place Content, moveFiles start (done ++ left) =
        moveFiles (moveFiles start done) left := by
    intro start
    exact foldl_append
  rw [split, split, again]

/-! ## Moves to new places -/

theorem get?_moveFiles_other {place : Place}
    (other : ∀ move ∈ moves, place ≠ move.1 ∧ place ≠ move.2) :
    (moveFiles files moves).get? place = files.get? place := by
  induction moves generalizing files with
  | nil => rfl
  | cons move moves induction =>
    obtain ⟨here, later⟩ := forall_mem_cons.mp other
    refine (induction later).trans ?_
    cases present : files.get? move.1 with
    | none => rw [moveFile_of_missing present]
    | some content => rw [get?_moveFile present, if_neg here.2, if_neg here.1]

/-- Moves that share no source and no destination, and none of which starts
where one ends, take each file where they say. -/
theorem get?_moveFiles_target (distinct : moves.Pairwise
      (fun first second => first.1 ≠ second.1 ∧ first.2 ≠ second.2))
    (apart : ∀ first ∈ moves, ∀ second ∈ moves, first.2 ≠ second.1)
    (member : move ∈ moves) (present : files.get? move.1 = some content) :
    (moveFiles files moves).get? move.2 = some content := by
  obtain ⟨before, after, rfl⟩ := append_of_mem member
  obtain ⟨_, ofAfter, across⟩ := pairwise_append.mp distinct
  have untouched : (moveFiles files before).get? move.1 = some content := by
    refine (get?_moveFiles_other ?_).trans present
    intro other isBefore
    exact ⟨(across other isBefore move mem_cons_self).1.symm,
      (apart other (mem_append_left _ isBefore) move member).symm⟩
  unfold moveFiles
  rw [foldl_append, foldl_cons]
  refine (get?_moveFiles_other ?_).trans ((get?_moveFile untouched _).trans (if_pos rfl))
  intro other isAfter
  exact ⟨apart move member other (mem_append_right _ (mem_cons_of_mem _ isAfter)),
    ((pairwise_cons.mp ofAfter).1 other isAfter).2⟩

/-! ## A move that replaces a file loses it -/

theorem names_moveFile (present : files.get? move.1 = some content) :
    (moveFile files move).names = insert move.2 (files.names.erase move.1) := by
  ext place
  rw [mem_names, get?_moveFile present, Finset.mem_insert, Finset.mem_erase, mem_names]
  by_cases atTarget : place = move.2
  · simp [atTarget]
  · by_cases atSource : place = move.1 <;> simp [atTarget, atSource]

theorem card_moveFile_le (files : Listing Place Content) (move : Place × Place) :
    (moveFile files move).names.card ≤ files.names.card := by
  cases present : files.get? move.1 with
  | none => rw [moveFile_of_missing present]
  | some content =>
    rw [names_moveFile present]
    have source : move.1 ∈ files.names := mem_names.mpr ⟨content, present⟩
    calc (insert move.2 (files.names.erase move.1)).card
      _ ≤ (files.names.erase move.1).card + 1 := Finset.card_insert_le _ _
      _ = files.names.card := Finset.card_erase_add_one source

theorem card_moveFile_lt (obstructed : ¬MoveFree files move) :
    (moveFile files move).names.card < files.names.card := by
  unfold MoveFree at obstructed
  simp only [not_or] at obstructed
  obtain ⟨present, different, occupied⟩ := obstructed
  obtain ⟨content, atSource⟩ := Option.ne_none_iff_exists'.mp present
  obtain ⟨other, atTarget⟩ := Option.ne_none_iff_exists'.mp occupied
  rw [names_moveFile atSource]
  have target : move.2 ∈ files.names.erase move.1 :=
    Finset.mem_erase.mpr ⟨Ne.symm different, mem_names.mpr ⟨other, atTarget⟩⟩
  rw [Finset.insert_eq_of_mem target]
  exact Finset.card_erase_lt_of_mem (mem_names.mpr ⟨content, atSource⟩)

theorem card_moveFiles_le (files : Listing Place Content) (moves : List (Place × Place)) :
    (moveFiles files moves).names.card ≤ files.names.card := by
  induction moves generalizing files with
  | nil => exact Nat.le_refl _
  | cons move moves induction =>
    exact (induction (moveFile files move)).trans (card_moveFile_le files move)

theorem card_moveFiles_lt (obstructed : ¬Unobstructed files moves) :
    (moveFiles files moves).names.card < files.names.card := by
  induction moves generalizing files with
  | nil => exact absurd trivial obstructed
  | cons move moves induction =>
    by_cases free : MoveFree files move
    · have later : ¬Unobstructed (moveFile files move) moves :=
        fun rest => obstructed ⟨free, rest⟩
      exact (induction later).trans_le (card_moveFile_le files move)
    · exact (card_moveFiles_le (moveFile files move) moves).trans_lt (card_moveFile_lt free)

/-- Every file of the first listing is in the second, no two at one place. -/
def Kept (before after : Listing Place Content) : Prop :=
  ∃ place : Place → Place, Set.InjOn place before.names ∧
    ∀ origin content, before.get? origin = some content → after.get? (place origin) = some content

theorem kept_moveFiles_iff : Kept files (moveFiles files moves) ↔ Unobstructed files moves := by
  constructor
  · intro kept
    obtain ⟨place, injective, found⟩ := kept
    by_contra obstructed
    have fewer := card_moveFiles_lt obstructed
    have maps : ∀ origin ∈ files.names, place origin ∈ (moveFiles files moves).names := by
      intro origin present
      obtain ⟨content, atOrigin⟩ := mem_names.mp present
      exact mem_names.mpr ⟨content, found origin content atOrigin⟩
    exact absurd (Finset.card_le_card_of_injOn place maps injective) (Nat.not_le_of_lt fewer)
  · intro free
    refine ⟨relocate moves, relocate_injOn free, ?_⟩
    intro origin content atOrigin
    exact (get?_moveFiles_iff free).mpr ⟨origin, atOrigin, rfl⟩

end MatrixSpooll.Library
