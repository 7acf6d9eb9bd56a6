import MatrixSpooll.Version.BatchRollback
import MatrixSpooll.Version.Operations

/-!
# How far a batch has come

A turn of the loop moves the staged file of one member onto its canonical
file.  It cannot succeed when the history of its resource has no next number
or when an earlier member has already taken its staged file.  `BatchProgress`
follows the loop through the members before the first such turn, as long as no
member takes the canonical file of a later one.
-/

namespace MatrixSpooll.Version

open Library Attempt List

variable {Bytes : Type} {environment : Environment Bytes} {disk : Disk Bytes} {data : VersionsData}
  {visited rest commits : List StagedVersionCommit}
  {commit : StagedVersionCommit} {start final : Working Bytes}

/-- The turn of `commit` after those of `before` must raise. -/
def Stops (data : VersionsData) (before : List StagedVersionCommit)
    (commit : StagedVersionCommit) : Prop :=
  nextVersion (recordsOf data commit.identity) = none ∨
  ∃ earlier ∈ before, earlier.stagedFile = commit.stagedFile ∧
    earlier.stagedFile ≠ earlier.currentFile

def Unstopped (data : VersionsData) (commits : List StagedVersionCommit) : Prop :=
  ∀ before commit after, commits = before ++ commit :: after → ¬ Stops data before commit

theorem Unstopped.nil : Unstopped data [] := by
  intro before commit after split
  cases before with
  | nil | cons first more => cases split

theorem Unstopped.snoc (unstopped : Unstopped data visited) (goesOn : ¬ Stops data visited commit) :
    Unstopped data (visited ++ [commit]) := by
  intro before member after split
  rcases eq_nil_or_concat after with isLast | more
  · subst isLast
    obtain ⟨same, isMember⟩ := append_inj' split rfl
    cases isMember
    rw [← same]
    exact goesOn
  · obtain ⟨init, last, isAfter⟩ := more
    rw [isAfter, concat_eq_append, ← cons_append, ← append_assoc] at split
    exact unstopped before member init (append_inj' split rfl).1

theorem Unstopped.of_append (unstopped : Unstopped data (visited ++ rest)) :
    Unstopped data visited := by
  intro before member after split
  apply unstopped before member (after ++ rest)
  rw [split, append_assoc, cons_append]

/-- What a member is committed for: its staged bytes are the content of the
canonical file and of the snapshot of its new, selected version. -/
def Done (disk : Disk Bytes) (commit : StagedVersionCommit) (working : Working Bytes) : Prop :=
  ∃ bytes version, disk.files (.media commit.stagedFile) = some bytes ∧
    working.files (.media commit.currentFile) = some bytes ∧
    Enrolled commit bytes working version

structure BatchProgress (disk : Disk Bytes) (data : VersionsData)
    (visited rest : List StagedVersionCommit) (working : Working Bytes) :
    Prop where
  recoverable : Recoverable (fun file => disk.files (.media file))
    ((visited ++ rest).map StagedVersionCommit.currentFile) working
  noted : working.currentStates.map CurrentState.currentFile =
    visited.map StagedVersionCommit.currentFile
  unstopped : Unstopped data visited
  spared : ∀ earlier ∈ visited, ∀ later ∈ rest, earlier.stagedFile ≠ later.currentFile
  consumed : ∀ earlier ∈ visited, earlier.stagedFile ≠ earlier.currentFile →
      working.files (.media earlier.stagedFile) = none
  frame : ∀ file, (∀ earlier ∈ visited, file ≠ earlier.currentFile ∧ file ≠ earlier.stagedFile) →
    working.files (.media file) = disk.files (.media file)
  occupied : ∀ earlier ∈ visited, (working.files (.media earlier.currentFile)).isSome = true ∨
    ∃ thief ∈ visited, thief.stagedFile = earlier.currentFile ∧ thief.stagedFile ≠ thief.currentFile
  records : ∀ identity, identity ∉ visited.map StagedVersionCommit.identity →
      recordsOf working.data identity = recordsOf data identity
  done : KeepsCanonical visited → ∀ earlier ∈ visited, Done disk earlier working

namespace BatchProgress

theorem opened (steps : Nat) : BatchProgress disk data [] commits
    ((disk.start.withData data).atStep steps) := by
  constructor
  · constructor
    · intro state member
      cases member
    · intro state member
      cases member
    · exact nodup_nil
    · exact nodup_nil
    · intro file _ _
      rfl
    · intro path member
      cases member
  · rfl
  · exact Unstopped.nil
  · intro earlier member
    cases member
  · intro earlier member
    cases member
  · intro file _
    rfl
  · intro earlier member
    cases member
  · intro identity _
    rfl
  · intro _ earlier member
    cases member

section Turn

variable (progress : BatchProgress disk data visited (commit :: rest) start)
  (accepted : Accepted disk.files (visited ++ commit :: rest))

include progress accepted

theorem fresh_current : commit.currentFile ∉ start.currentStates.map CurrentState.currentFile := by
  rw [progress.noted]
  exact accepted.fresh_current

theorem interrupted (stopped : Interrupted commit.currentFile start final) :
    Recoverable (fun file => disk.files (.media file))
      ((visited ++ commit :: rest).map StagedVersionCommit.currentFile)
      final :=
  progress.recoverable.interrupted (progress.fresh_current accepted) stopped

theorem nextVersion_eq : nextVersion (start.resource commit.identity).versions =
      nextVersion (recordsOf data commit.identity) := by
  rw [← progress.records _ accepted.fresh_identity]
  rfl

theorem staged_present (goesOn : ¬ Stops data visited commit) :
    (start.files (.media commit.stagedFile)).isSome = true := by
  by_cases touched : ∃ earlier ∈ visited, commit.stagedFile = earlier.currentFile ∨
        commit.stagedFile = earlier.stagedFile
  · obtain ⟨earlier, member, isTouched⟩ := touched
    have isCurrent : commit.stagedFile = earlier.currentFile := by
      rcases isTouched with isCurrent | isStaged
      · exact isCurrent
      · by_contra different
        rw [isStaged] at different
        exact goesOn (.inr ⟨earlier, member, isStaged.symm, different⟩)
    rw [isCurrent]
    rcases progress.occupied earlier member with present | stolen
    · exact present
    · obtain ⟨thief, isThief, steals, moves⟩ := stolen
      exact absurd (.inr ⟨thief, isThief, steals.trans isCurrent.symm, moves⟩) goesOn
  · have untouched := progress.frame commit.stagedFile (by
      intro earlier member
      exact ⟨fun same => touched ⟨earlier, member, .inl same⟩,
        fun same => touched ⟨earlier, member, .inr same⟩⟩)
    rw [untouched]
    exact accepted.staged commit (mem_append_right _ mem_cons_self)

theorem not_stops (turned : Turned commit start final) : ¬ Stops data visited commit := by
  intro stops
  rcases stops with unnumbered | taken
  · have numbered := turned.numbered
    rw [progress.nextVersion_eq accepted, unnumbered] at numbered
    cases numbered
  · obtain ⟨earlier, member, same, moves⟩ := taken
    obtain ⟨bytes, _, present, _⟩ := turned.moved
    rw [← same, progress.consumed earlier member moves] at present
    cases present

end Turn

theorem Done.turned {earlier : StagedVersionCommit}
    (done : Done disk earlier start) (turned : Turned commit start final)
    (different : earlier.identity ≠ commit.identity)
    (supported : commit.identity.resourceType ∈ resourceTypes)
    (earlierSupported : earlier.identity.resourceType ∈ resourceTypes)
    (otherCurrent : earlier.currentFile ≠ commit.currentFile)
    (notTaken : earlier.currentFile ≠ commit.stagedFile) :
    Done disk earlier final := by
  obtain ⟨bytes, version, staged, current, enrolled⟩ := done
  obtain ⟨resource, timestamp, createdAt, previous, stored, isCurrent, isLast,
    held⟩ := enrolled.registered
  obtain ⟨_, _, _, _, media⟩ := turned.moved
  refine ⟨bytes, version, staged, ?_, ?_⟩
  · rw [media, if_neg otherCurrent, if_neg notTaken]
    exact current
  · refine ⟨⟨resource, timestamp, createdAt, previous, ?_, isCurrent, isLast,
      ?_⟩, turned.kept _ enrolled.reported⟩
    · rw [turned.otherData _ different]
      exact stored
    · rw [turned.otherSnapshots _ _ _ different supported earlierSupported]
      exact held

theorem turned (progress : BatchProgress disk data visited (commit :: rest) start)
    (accepted : Accepted disk.files (visited ++ commit :: rest))
    (spares : ∀ later ∈ rest, commit.stagedFile ≠ later.currentFile)
    (turned : Turned commit start final) :
    BatchProgress disk data (visited ++ [commit]) rest final := by
  have goesOn := progress.not_stops accepted turned
  have acceptedHere : Accepted disk.files (visited ++ [commit]) := by
    rw [append_cons] at accepted
    exact accepted.of_append
  have isLast : commit ∈ visited ++ [commit] := mem_append_right _ mem_cons_self
  obtain ⟨bytes, version, present, enrolled, media⟩ := turned.moved
  obtain ⟨state, isFile, _, noted⟩ := turned.state
  constructor
  · rw [← append_cons]
    apply progress.recoverable.turned (progress.fresh_current accepted) turned
    intro file isWatched isNew notCurrent same
    rw [progress.noted] at isNew
    obtain ⟨member, isMember, isFile⟩ := mem_map.mp isWatched
    rcases mem_append.mp isMember with older | newer
    · apply isNew
      rw [← isFile]
      exact mem_map_of_mem older
    · rcases mem_cons.mp newer with isCommit | later
      · rw [isCommit] at isFile
        exact notCurrent isFile.symm
      · exact spares member later (same.symm.trans isFile.symm)
  · rw [noted, map_append, map_append, progress.noted, map_singleton, map_singleton, isFile]
  · exact progress.unstopped.snoc goesOn
  · intro earlier member later isLater
    rcases mem_append.mp member with older | isCommit
    · exact progress.spared earlier older later (mem_cons_of_mem commit isLater)
    · rw [mem_singleton.mp isCommit]
      exact spares later isLater
  · intro earlier member moves
    rcases mem_append.mp member with older | isCommit
    · have notHere : earlier.stagedFile ≠ commit.currentFile :=
        progress.spared earlier older commit mem_cons_self
      rw [media, if_neg notHere]
      split
      · rfl
      · exact progress.consumed earlier older moves
    · rw [mem_singleton.mp isCommit] at moves ⊢
      rw [media, if_neg moves, if_pos rfl]
  · intro file untouched
    have here := untouched commit isLast
    rw [media, if_neg here.1, if_neg here.2]
    apply progress.frame
    intro earlier older
    exact untouched earlier (mem_append_left _ older)
  · intro earlier member
    rcases mem_append.mp member with older | isCommit
    · have otherCurrent := acceptedHere.other_current older
      by_cases taken : earlier.currentFile = commit.stagedFile
      · right
        refine ⟨commit, isLast, taken.symm, ?_⟩
        rw [← taken]
        exact otherCurrent
      · rw [media, if_neg otherCurrent, if_neg taken]
        rcases progress.occupied earlier older with there | stolen
        · exact .inl there
        · obtain ⟨thief, isThief, steals⟩ := stolen
          exact .inr ⟨thief, mem_append_left _ isThief, steals⟩
    · left
      rw [mem_singleton.mp isCommit, media, if_pos rfl]
      rfl
  · intro identity unvisited
    rw [map_append, mem_append] at unvisited
    have different : identity ≠ commit.identity := by
      intro same
      apply unvisited
      right
      rw [same]
      exact mem_cons_self
    unfold recordsOf
    rw [turned.otherData identity different]
    exact progress.records identity (fun older => unvisited (.inl older))
  · intro keeps earlier member
    have keepsOlder := (pairwise_append.mp keeps).1
    have apart := (pairwise_append.mp keeps).2.2
    rcases mem_append.mp member with older | isCommit
    · exact Done.turned (progress.done keepsOlder earlier older) turned
        (acceptedHere.other_identity older) (acceptedHere.supported commit isLast)
        (acceptedHere.supported_earlier older) (acceptedHere.other_current older)
        (fun same => apart earlier older commit mem_cons_self same.symm)
    · rw [mem_singleton.mp isCommit]
      refine ⟨bytes, version, ?_, ?_, enrolled⟩
      · -- what the member staged is still what it had staged at the start
        rw [← present]
        symm
        apply progress.frame
        intro earlier member
        have notCurrent := apart earlier member commit mem_cons_self
        refine ⟨notCurrent, fun same => goesOn (.inr ?_)⟩
        exact ⟨earlier, member, same.symm, same ▸ notCurrent⟩
      · rw [media, if_pos rfl]

end BatchProgress

end MatrixSpooll.Version
