import MatrixSpooll.Version.BatchTurn
import MatrixSpooll.Version.Operations

/-!
# Turns that nothing disturbs

Where the steps of the file system work, a turn of the batch raises only for
what it finds: a staged file that is missing or a history without a next
number.
-/

namespace MatrixSpooll.Version

open Library Attempt

variable {Bytes : Type} {environment : Environment Bytes}
  {codec : VersionsCodec Bytes} {start : Working Bytes}

/-- Steps of this kind never fail. -/
def Environment.Works (environment : Environment Bytes) (operation : Operation) : Prop :=
  ∀ count, environment.outcome count operation = .completes

theorem passStep_returns {operation : Operation}
    (works : environment.Works operation) (failure : VersionError) :
    Returns start (passStep environment operation failure) := by
  refine ⟨(), start.advance, ?_⟩
  unfold passStep
  rw [works]

theorem passStep_then_returns {Value : Type} {operation : Operation}
    (works : environment.Works operation) {failure : VersionError} {rest : Unit → Stage Bytes Value}
    (goesOn : ∀ steps, Returns (start.atStep steps) (rest ())) :
    Returns start (passStep environment operation failure >>= rest) := by
  apply Returns.bind (passStep_returns works failure)
  intro _ passed ran
  obtain ⟨steps, isPassed⟩ := (passStep_ensures operation failure).ok ran
  subst isPassed
  exact goesOn steps

theorem copyFile_returns (works : environment.Works .copy)
    {source target : Path} (present : (start.files source).isSome = true)
    (different : source ≠ target) :
    Returns start (copyFile environment source target) := by
  obtain ⟨bytes, isBytes⟩ := Option.isSome_iff_exists.mp present
  refine ⟨(), start.advance.write target (some bytes), ?_⟩
  unfold copyFile
  rw [isBytes]
  simp only [if_neg different, works start.steps]

theorem replaceFile_returns (works : environment.Works .replace) {source : Path}
    (present : (start.files source).isSome = true) (target : Path) :
    Returns start (replaceFile environment source target) := by
  obtain ⟨bytes, isBytes⟩ := Option.isSome_iff_exists.mp present
  refine ⟨(), start.advance.move source target bytes, ?_⟩
  unfold replaceFile
  rw [isBytes]
  simp only [works start.steps]

theorem makeTemporary_returns (works : environment.Works .makeTemporary) :
    Returns start (makeTemporary environment) := by
  unfold Returns makeTemporary
  rw [works]
  exact ⟨_, _, rfl⟩

theorem rememberCurrent_returns (temporary : environment.Works .makeTemporary)
    (copies : environment.Works .copy) (currentFile : String) :
    Returns start (rememberCurrent environment currentFile) := by
  apply Returns.branch
  · intro present
    refine Returns.bind ?_ (fun backup state _ => ⟨(), _, rfl⟩)
    unfold createRollbackBackup
    apply Returns.bind (makeTemporary_returns temporary)
    intro candidate made ran
    obtain ⟨isCandidate, steps, isMade⟩ := makeTemporary_ensures.ok ran
    subst isMade isCandidate
    apply Returns.bind
    · apply Returns.orUndo
      exact copyFile_returns copies present nofun
    · intro _ state _
      exact ⟨_, state, rfl⟩
  · intro _
    exact ⟨(), _, rfl⟩

section

variable {identity : Identity}
  (numbered : (nextVersion (start.resource identity).versions).isSome = true)
include numbered

theorem takeNumber_returns : Returns start (takeNumber identity) := by
  obtain ⟨version, taken⟩ := Option.isSome_iff_exists.mp numbered
  refine ⟨version, start, ?_⟩
  unfold takeNumber
  rw [taken]

section

variable (directories : environment.Works .makeDirectories) (copies : environment.Works .copy)
include directories copies

theorem appendVersion_returns {source : String}
    (present : (start.files (.media source)).isSome = true) (prompt : String)
    (metadata : List (String × Json)) (remember : Json → Int) (selects : Bool) :
    Returns start (appendVersion environment identity source prompt metadata remember selects) := by
  apply Returns.bind (takeNumber_returns numbered)
  intro version taken ran
  obtain ⟨isTaken, _⟩ := (takeNumber_ensures identity).ok ran
  subst isTaken
  refine Returns.bind ⟨_, _, rfl⟩ ?_
  intro file read isRead
  cases isRead
  apply passStep_then_returns directories
  intro steps
  have stillPresent : ((taken.atStep steps).files (.media source)).isSome = true := present
  apply Returns.bind
  · apply copyFile_returns copies stillPresent
    rw [projectFile_versionRelPath]
    intro same
    cases same
  intro _ copied _
  exact ⟨_, _, rfl⟩

theorem trackCurrent_returns (currentFile : String) (remember : Json → Int) :
    Returns start (trackCurrent environment identity currentFile remember) := by
  apply Returns.branch
  · intro untracked
    have present : (start.files (.media currentFile)).isSome = true :=
      (Bool.and_eq_true_iff.mp untracked).1
    apply Returns.bind (appendVersion_returns numbered directories copies
      present "" [] remember true)
    intro version final _
    exact ⟨_, _, rfl⟩
  · intro _
    exact ⟨_, _, rfl⟩

end

end

theorem Appended.numbered {identity : Identity} {source : String}
    {remember : Json → Int} {version : Int} {final : Working Bytes}
    (appended : Appended identity source "" [] remember true start version final) :
    (nextVersion (final.resource identity).versions).isSome = true := by
  obtain ⟨bytes, timestamp, createdAt, steps, _, isFinal⟩ := appended.byCopy
  have stored : (final.resource identity).versions =
      (start.resource identity).versions ++ [newRecord version
        (versionRelPath identity version timestamp) "" createdAt []
        (remember (start.resource identity).currentVersion)] := by
    unfold Working.resource
    rw [isFinal]
    show (Option.getD ((start.data.put identity _).get? identity) _).versions = _
    rw [Dict.get?_put, if_pos rfl]
    rfl
  have numbered := appended.ofNumber
  unfold nextVersion at numbered ⊢
  obtain ⟨numbers, areNumbers, _⟩ := Option.map_eq_some_iff.mp numbered
  rw [stored, List.mapM_append, areNumbers]
  rfl

/-- The kinds of step that a turn takes. -/
structure Environment.Turns (environment : Environment Bytes) : Prop where
  directories : environment.Works .makeDirectories
  temporary : environment.Works .makeTemporary
  copies : environment.Works .copy
  replaces : environment.Works .replace

theorem activateMember_returns (turns : environment.Turns)
    {commit : StagedVersionCommit} (numbered : (nextVersion
      (start.resource commit.identity).versions).isSome = true)
    (staged : (start.files (.media commit.stagedFile)).isSome = true) :
    Returns start (activateMember environment commit) := by
  unfold activateMember
  apply passStep_then_returns turns.directories
  intro steps
  apply Returns.bind (rememberCurrent_returns turns.temporary turns.copies _)
  intro _ remembered ran
  obtain ⟨middle, state, beside, _, _, isRemembered⟩ := (rememberCurrent_ensures _).ok ran
  subst isRemembered
  have sameResource : (middle.remember state).resource commit.identity =
    start.resource commit.identity := beside.resource commit.identity
  have sameStaged : (middle.remember state).files (.media commit.stagedFile) =
    start.files (.media commit.stagedFile) :=
      beside.files _ nofun
  rw [← sameResource] at numbered
  rw [← sameStaged] at staged
  apply Returns.bind (trackCurrent_returns numbered turns.directories turns.copies _ _)
  intro _ tracked ran
  obtain ⟨stillNumbered, stillStaged⟩ :
      (nextVersion (tracked.resource commit.identity).versions).isSome = true ∧
      (tracked.files (.media commit.stagedFile)).isSome = true := by
    rcases (trackCurrent_ensures _ _ _).ok ran with same | appended
    · rw [same]
      exact ⟨numbered, staged⟩
    · obtain ⟨version, appended⟩ := appended
      refine ⟨appended.numbered, ?_⟩
      rw [(Prepares.appended appended).media]
      exact staged
  apply Returns.bind (appendVersion_returns stillNumbered turns.directories
    turns.copies stillStaged _ _ _ _)
  intro version appended ran
  have isAppended := (appendVersion_ensures _ _ _ _ _ _).ok ran
  rw [← (Prepares.appended isAppended).media] at stillStaged
  apply Returns.bind (replaceFile_returns turns.replaces stillStaged _)
  intro _ replaced _
  exact ⟨_, _, rfl⟩

theorem checkBatch_returns {before commits : List StagedVersionCommit}
    (accepted : Accepted start.files (before ++ commits)) :
    Returns start (checkBatch before commits) := by
  induction commits generalizing before with
  | nil => exact ⟨_, _, rfl⟩
  | cons commit rest induction =>
    have member : commit ∈ before ++ commit :: rest := List.mem_append_right _ List.mem_cons_self
    have newIdentity := accepted.fresh_identity
    have newCurrent := accepted.fresh_current
    have split := List.append_cons before commit rest
    rw [split] at accepted
    have checked : Returns start (checkMember before commit) := by
      refine Returns.demand (List.contains_iff_mem.mpr
        (accepted.supported commit (split ▸ member))) ?_
      refine Returns.demand (decide_eq_true newIdentity) ?_
      refine Returns.demand (accepted.staged commit (split ▸ member)) ?_
      exact Returns.demand_last (decide_eq_true newCurrent)
    apply Returns.bind checked
    intro _ final ran
    obtain ⟨isFinal, _⟩ := (checkMember_ensures accepted.of_append.of_append).ok ran
    subst isFinal
    exact induction accepted

theorem loadVersions_returns (reads : environment.Works .read)
    (decodes : (start.history? codec).isSome = true) :
    Returns start (loadVersions codec environment) := by
  apply passStep_then_returns reads
  intro _
  exact Returns.demand decodes ⟨_, _, rfl⟩

theorem saveVersions_returns (directories : environment.Works .makeDirectories)
    (saves : environment.Works .save) :
    Returns start (saveVersions codec environment) := by
  apply passStep_then_returns directories
  intro _
  apply passStep_then_returns saves
  intro _
  exact ⟨_, _, rfl⟩

end MatrixSpooll.Version
