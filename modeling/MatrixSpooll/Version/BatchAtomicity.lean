import MatrixSpooll.Version.BatchProgress
import MatrixSpooll.Version.HistoryInvariant
import MatrixSpooll.Version.Undisturbed

/-!
# All or nothing

`commit_staged_versions` promises that the whole of `versions.json` and every
canonical file are restored if anything fails.  That holds for exactly those
batches whose members keep to their own files: a member that stages the
canonical file of a later one removes it before the rollback has a note of it,
and one that stages the canonical file of an earlier one leaves that member
without its file although the call returns.
-/

namespace MatrixSpooll.Version

open Library Attempt StagedVersionCommit List Ensures Working

variable {Bytes : Type} {codec : VersionsCodec Bytes}
  {environment : Environment Bytes} {disk : Disk Bytes}
  {data : VersionsData} {commits : List StagedVersionCommit}
  {onCommit : Bool}

/-- The member's staged bytes are in its canonical file and in the snapshot of
its last version, which the history on disk selects. -/
def MemberCommitted (codec : VersionsCodec Bytes) (disk : Disk Bytes)
    (commit : StagedVersionCommit) (result : List (Identity × Int)) (final : Disk Bytes) : Prop :=
  ∃ bytes version history resource timestamp createdAt previous,
    disk.files (.media commit.stagedFile) = some bytes ∧
    final.files (.media commit.currentFile) = some bytes ∧
    final.history? codec = some history ∧
    history.get? commit.identity = some resource ∧
    resource.currentVersion = .int version ∧
    resource.versions.getLast? = some (newRecord version
      (versionRelPath commit.identity version timestamp) commit.prompt
      createdAt commit.metadata previous) ∧
    final.files (.managed (versionRelPath commit.identity version timestamp)) = some bytes ∧
    (commit.identity, version) ∈ result

/-- A call that raises leaves the canonical files and `versions.json` as they
were, and one that returns has committed every member. -/
structure AllOrNothing (codec : VersionsCodec Bytes)
    (environment : Environment Bytes) (disk : Disk Bytes)
    (commits : List StagedVersionCommit) (onCommit : Bool) : Prop where
  raised : ∀ failure final, disk.run (commitStagedVersions codec environment commits onCommit) =
      (.error failure, final) →
    (∀ commit ∈ commits, final.files (.media commit.currentFile) =
      disk.files (.media commit.currentFile)) ∧
    final.files versionsFile = disk.files versionsFile
  returned : ∀ result final, disk.run (commitStagedVersions codec environment commits onCommit) =
      (.ok result, final) →
    ∀ commit ∈ commits, MemberCommitted codec disk commit result final

/-- No member whose turn comes takes the canonical file of a later one. -/
def Lossless (data : VersionsData) (commits : List StagedVersionCommit) : Prop :=
  ∀ before commit after, commits = before ++ commit :: after → Unstopped data (before ++ [commit]) →
    ∀ later ∈ after, commit.stagedFile ≠ later.currentFile

/-- The members keep to their own files, as far as the batch gets. -/
structure Separate (data : VersionsData) (commits : List StagedVersionCommit) : Prop where
  noLoss : Lossless data commits
  noTheft : Unstopped data commits → KeepsCanonical commits

/-! ## The end of a batch -/

/-- After the history has been written and the backups have been removed. -/
structure Settled (codec : VersionsCodec Bytes) (reached final : Working Bytes) : Prop where
  saved : final.files versionsFile = some (codec.dump reached.data)
  files : ∀ path, path ≠ versionsFile → (∀ index, path ≠ .temporary index) →
    final.files path = reached.files path
  result : final.result = reached.result
  states : final.currentStates = reached.currentStates

theorem Settled.written (reached : Working Bytes) (steps : Nat) :
    Settled codec reached ((reached.write versionsFile
      (some (codec.dump reached.data))).atStep steps) := by
  constructor
  · exact (files_write _ _ _ _).trans (if_pos rfl)
  · intro path notHistory _
    exact (files_write _ _ _ _).trans (if_neg notHistory)
  all_goals rfl

theorem Settled.removeBackups {reached final : Working Bytes}
    (settled : Settled codec reached final)
    (temporary : ∀ path ∈ final.backups, ∃ index, path = .temporary index) :
    Settled codec reached (unlinkPaths environment final.backups final) := by
  apply unlinkPaths_keeps _ _ settled
  · intro working count holds
    exact ⟨holds.saved, holds.files, holds.result, holds.states⟩
  · intro path member working holds
    obtain ⟨index, isTemporary⟩ := temporary path member
    subst isTemporary
    constructor
    · exact (files_write _ _ _ _).trans ((if_neg nofun).trans holds.saved)
    · intro path notHistory notTemporary
      rw [files_write, if_neg (notTemporary index)]
      exact holds.files path notHistory notTemporary
    · exact holds.result
    · exact holds.states

theorem Settled.committed {reached final : Working Bytes}
    (settled : Settled codec reached final) {commit : StagedVersionCommit}
    (done : Done disk commit reached) :
    MemberCommitted codec disk commit final.result final.toDisk := by
  obtain ⟨bytes, version, staged, current, enrolled⟩ := done
  obtain ⟨resource, timestamp, createdAt, previous, stored, isCurrent, isLast,
    held⟩ := enrolled.registered
  refine ⟨bytes, version, reached.data, resource, timestamp, createdAt,
    previous, staged, ?_, ?_, stored, isCurrent, isLast, ?_, ?_⟩
  · rw [← current]
    apply settled.files
    · intro same
      cases same
    · intro index same
      cases same
  · unfold Disk.history?
    rw [settled.saved]
    exact codec.load_dump reached.data
  · rw [← held]
    apply settled.files
    · exact versionRelPath_ne_versionsFile _ _ _
    · intro index same
      cases same
  · rw [settled.result]
    exact enrolled.reported

theorem BatchProgress.removeBackups {reached final : Working Bytes}
    (progress : BatchProgress disk data commits [] reached)
    (settled : Settled codec reached final) :
    Settled codec reached (unlinkPaths environment final.backups final) := by
  apply settled.removeBackups
  intro path isBackup
  unfold backups at isBackup
  rw [settled.states] at isBackup
  obtain ⟨state, isState, named⟩ := mem_filterMap.mp isBackup
  obtain ⟨index, isPath, _⟩ := progress.recoverable.backups state isState path named
  exact ⟨index, isPath⟩

theorem saveAndNotify_ensures {start : Working Bytes} (given : Bool) :
    Ensures start (saveAndNotify codec environment given)
      (fun _ => Settled codec start) (fun final => ∃ content steps,
        final = (start.write versionsFile content).atStep steps) := by
  apply Ensures.bind saveVersions_ensures
  · intro final failed
    obtain ⟨steps, isFinal⟩ := failed
    refine ⟨start.files versionsFile, steps, ?_⟩
    rw [write_self]
    exact isFinal
  intro _ saved isSaved
  obtain ⟨steps, isSaved⟩ := isSaved
  subst isSaved
  apply (runCallback_ensures given).weaken
  · intro _ final passed
    obtain ⟨count, isFinal⟩ := passed
    rw [isFinal]
    exact Settled.written start count
  · intro final failed
    obtain ⟨count, isFinal⟩ := failed
    exact ⟨_, count, isFinal⟩

theorem Recoverable.history {target : String → Option Bytes}
    {watched : List String} {start : Working Bytes} (recoverable : Recoverable target watched start)
    (content : Option Bytes) (steps : Nat) :
    Recoverable target watched ((start.write versionsFile content).atStep steps) := by
  refine recoverable.extend none ?_ (Nat.le_refl _)
    (fun _ member => .inl member) nofun (append_nil _).symm ?_
  · intro index _
    exact (files_write _ _ _ _).trans (if_neg nofun)
  · intro file _ _ _
    exact (files_write _ _ _ _).trans (if_neg nofun)

/-- A stage ahead of the guarded part returns, or its raising is accounted
for. -/
theorem Ensures.settle (start : Working Bytes) {Value : Type}
    {stage : Stage Bytes Value} {returned : Value → Working Bytes → Prop}
    {enters : Prop} {raised : Working Bytes → Prop}
    (ensured : Ensures start stage returned (Passed disk.start))
    (front : enters ∨ ∀ steps, raised (disk.start.atStep steps))
    (returns : enters → Returns start stage) :
    Ensures start stage returned raised := by
  rcases front with holds | stops
  · exact ensured.sure (returns holds) raised
  · apply ensured.weaken (fun _ _ holds => holds)
    intro final failed
    obtain ⟨steps, isFinal⟩ := failed
    rw [isFinal]
    exact stops steps

/-- From the guarded part of the call to the whole of it.  The part ahead of
it cannot raise when the batch is accepted and the history can be read. -/
theorem commitStagedVersions_ensures {reached interrupted : Working Bytes → Prop}
    {returned : List (Identity × Int) → Working Bytes → Prop}
    {raised : Working Bytes → Prop} (nonempty : commits ≠ [])
    (front : (Accepted disk.files commits ∧
        (disk.history? codec).isSome = true ∧ environment.Works .read) ∨
      ∀ steps, raised (disk.start.atStep steps))
    (ofBody : ∀ data steps, Accepted disk.files commits → disk.history? codec = some data →
      Ensures ((disk.start.withData data).atStep steps)
        (activateBatch codec environment commits onCommit) (fun _ => reached) interrupted)
    (onReturn : ∀ state, reached state →
      returned (unlinkPaths environment state.backups state).result
        (unlinkPaths environment state.backups state))
    (onRaise : ∀ message failure state, interrupted state →
      raised (rollBack environment (disk.files versionsFile) message failure state).2) :
    Ensures disk.start (commitStagedVersions codec environment commits onCommit) returned
      raised := by
  unfold commitStagedVersions
  split
  · exact absurd rfl nonempty
  have checked : Ensures disk.start (checkBatch [] commits)
      (fun _ final => final = disk.start ∧ Accepted disk.files commits) (Passed disk.start) :=
    (checkBatch_ensures Accepted.nil).weaken (fun _ _ holds => holds) (fun _ same => ⟨0, same⟩)
  apply seq (Ensures.settle _ checked front (fun enters => checkBatch_returns enters.1))
  intro _ state passed
  obtain ⟨isState, accepted⟩ := passed
  subst isState
  apply seq (Ensures.settle _ readVersionsFile_ensures front
    (fun enters => passStep_then_returns enters.2.2 (fun _ => ⟨_, _, rfl⟩)))
  intro snapshot state isRead
  obtain ⟨isSnapshot, steps, isState⟩ := isRead
  subst isState isSnapshot
  apply seq (Ensures.settle (disk.start.atStep steps) loadVersions_ensures front
    (fun enters => loadVersions_returns enters.2.2 enters.2.1))
  intro _ state isLoaded
  obtain ⟨data, steps, decoded, isState⟩ := isLoaded
  subst isState
  apply seq ((ofBody data steps accepted decoded).orUndo (onRaise _))
  intro _ final ended
  apply Ensures.change
  apply read_last
  exact onReturn final ended

theorem Disk.run_ensures {Value : Type} {call : Stage Bytes Value}
    (returned : Value → Disk Bytes → Prop) (raised : Disk Bytes → Prop)
    (ensured : Ensures disk.start call (fun value final => returned value final.toDisk)
      (fun final => raised final.toDisk)) :
    (∀ value final, disk.run call = (.ok value, final) → returned value final) ∧
    ∀ failure final, disk.run call = (.error failure, final) → raised final := by
  constructor
  · intro value final ran
    obtain ⟨isOk, isFinal⟩ := Prod.mk.inj ran
    rw [← isFinal]
    exact ensured.ok (Prod.ext isOk rfl)
  · intro failure final ran
    obtain ⟨isError, isFinal⟩ := Prod.mk.inj ran
    rw [← isFinal]
    exact ensured.error (Prod.ext isError rfl)

/-! ## Batches that lose no file -/

section

variable (lossless : Lossless data commits) (accepted : Accepted disk.files commits) (steps : Nat)
include lossless accepted

theorem Lossless.forEach_ensures {raised : Working Bytes → Prop}
    (turn : ∀ visited commit rest state, visited ++ commit :: rest = commits →
      BatchProgress disk data visited (commit :: rest) state →
      Ensures state (activateMember environment commit) (fun _ => Turned commit state) raised) :
    Ensures ((disk.start.withData data).atStep steps)
      (Attempt.forEach commits (activateMember environment))
      (fun _ => BatchProgress disk data commits []) raised := by
  refine (Ensures.forEach (fun visited state => ∃ rest,
    visited ++ rest = commits ∧ BatchProgress disk data visited rest state)
    ?_ ?_).weaken ?_ (fun _ stopped => stopped)
  · intro visited commit rest state split before
    obtain ⟨more, sameSplit, progress⟩ := before
    rw [← split] at sameSplit
    cases append_cancel_left sameSplit
    refine (turn visited commit rest state split progress).weaken ?_ (fun _ stopped => stopped)
    intro _ final turned
    rw [← split] at accepted
    have goesOn := progress.not_stops accepted turned
    refine ⟨rest, ?_, ?_⟩
    · rw [← append_cons]
      exact split
    · exact progress.turned accepted (lossless visited commit rest
        split.symm (progress.unstopped.snoc goesOn)) turned
  · exact ⟨commits, rfl, BatchProgress.opened steps⟩
  · intro _ final ended
    obtain ⟨rest, split, progress⟩ := ended
    have isNil : rest = [] := append_right_eq_self.mp split
    subst isNil
    exact progress

/-- Whatever fails, the canonical files and the history come back. -/
theorem Lossless.activateBatch_ensures : Ensures ((disk.start.withData data).atStep steps)
      (activateBatch codec environment commits onCommit)
      (fun _ final => ∃ reached, BatchProgress disk data commits [] reached ∧
        Settled codec reached final)
      (Recoverable (fun file => disk.files (.media file)) (commits.map currentFile)) := by
  refine seq (lossless.forEach_ensures accepted steps ?_) ?_
  · intro visited commit rest state split progress
    subst split
    apply (activateMember_turns commit).weaken (fun _ _ turned => turned)
    intro final stopped
    exact progress.interrupted accepted stopped
  · intro _ reached progress
    apply (saveAndNotify_ensures onCommit).weaken
    · intro _ final settled
      exact ⟨reached, progress, settled⟩
    · intro final failed
      obtain ⟨content, count, isFinal⟩ := failed
      rw [isFinal]
      have recoverable := progress.recoverable
      rw [append_nil] at recoverable
      exact recoverable.history content count

end

theorem allOrNothing_of_separate (restores : environment.Restores)
    (separate : ∀ data, Accepted disk.files commits →
      disk.history? codec = some data → Separate data commits) :
    AllOrNothing codec environment disk commits onCommit := by
  by_cases nonempty : commits = []
  · subst nonempty
    constructor
    · intro failure final ran
      cases ran
    · intro result final _ commit member
      cases member
  let target := fun file => disk.files (.media file)
  let watched := commits.map currentFile
  have ensured : Ensures disk.start (commitStagedVersions codec environment commits onCommit)
      (fun result final => ∀ commit ∈ commits,
        MemberCommitted codec disk commit result final.toDisk)
      (RolledBack target watched (disk.files versionsFile)) := by
    apply commitStagedVersions_ensures nonempty (.inr fun steps => ⟨fun _ _ => rfl, rfl⟩)
    · intro data steps accepted decoded
      have separate := separate data accepted decoded
      refine (separate.noLoss.activateBatch_ensures accepted steps).weaken ?_
        (fun _ stopped => stopped)
      intro _ final ended
      obtain ⟨reached, progress, settled⟩ := ended
      exact (⟨data, reached, separate, progress, settled⟩ : ∃ data reached, Separate data commits ∧
          BatchProgress disk data commits [] reached ∧
          Settled codec reached final)
    · intro final ended commit member
      obtain ⟨data, reached, separate, progress, settled⟩ := ended
      exact (progress.removeBackups settled).committed (progress.done
        (separate.noTheft progress.unstopped) commit member)
    · intro message failure state recoverable
      exact recoverable.rollBack restores _ message failure
  obtain ⟨ofReturn, ofRaise⟩ := Disk.run_ensures (fun result final => ∀ commit ∈ commits,
      MemberCommitted codec disk commit result final)
    (fun final => (∀ commit ∈ commits, final.files (.media commit.currentFile) =
          disk.files (.media commit.currentFile)) ∧
      final.files versionsFile = disk.files versionsFile)
    (ensured.weaken (fun _ _ holds => holds) (by
      intro final rolledBack
      refine ⟨?_, rolledBack.history⟩
      intro commit member
      exact rolledBack.files _ (mem_map_of_mem member)))
  exact ⟨ofRaise, ofReturn⟩

/-! ## Batches that lose a file -/

/-- Every step works but those of one kind. -/
def Environment.failing (failing : Option Operation) : Environment Bytes :=
  { outcome := fun _ operation =>
      if failing = some operation then .fails none else .completes
    bestEffort := fun _ => true
    timestamp := fun _ => ⟨"", by decide⟩
    isoTimestamp := fun _ => "" }

theorem Environment.failing_works {failing : Option Operation}
    {operation : Operation} (different : failing ≠ some operation) :
    (Environment.failing failing : Environment Bytes).Works operation :=
  fun _ => if_neg different

theorem Environment.failing_turns {failing : Option Operation}
    (ofEnd : failing = none ∨ failing = some .save) :
    (Environment.failing failing : Environment Bytes).Turns := by
  constructor
  all_goals
    apply Environment.failing_works
    rcases ofEnd with isNone | isSave
    · rw [isNone]
      decide
    · rw [isSave]
      decide

theorem BatchProgress.returns (turns : environment.Turns)
    {visited rest : List StagedVersionCommit} {commit : StagedVersionCommit} {start : Working Bytes}
    (progress : BatchProgress disk data visited (commit :: rest) start)
    (accepted : Accepted disk.files (visited ++ commit :: rest))
    (goesOn : ¬ Stops data visited commit) :
    Returns start (activateMember environment commit) := by
  apply activateMember_returns turns
  · rw [progress.nextVersion_eq accepted]
    apply Option.isSome_iff_ne_none.mpr
    intro unnumbered
    exact goesOn (.inl unnumbered)
  · exact progress.staged_present accepted goesOn

/-- A file that is gone and that no note of the rollback brings back. -/
structure Lost (file : String) (visited : List StagedVersionCommit)
    (working : Working Bytes) : Prop where
  recoverable : Recoverable (fun _ => none) [file] working
  noted : working.currentStates.map CurrentState.currentFile = visited.map currentFile

namespace Lost

variable {visited rest : List StagedVersionCommit}
  {commit : StagedVersionCommit} {start final : Working Bytes}

/-- A member that stages the canonical file of a later one removes it. -/
theorem begins (progress : BatchProgress disk data visited (commit :: rest) start)
    (accepted : Accepted disk.files (visited ++ commit :: rest))
    {later : StagedVersionCommit} (isLater : later ∈ rest)
    (takes : commit.stagedFile = later.currentFile) (turned : Turned commit start final) :
    Lost commit.stagedFile (visited ++ [commit]) final := by
  obtain ⟨bytes, _, _, _, media⟩ := turned.moved
  obtain ⟨state, isFile, _, noted⟩ := turned.state
  have allNoted : final.currentStates.map CurrentState.currentFile =
      (visited ++ [commit]).map currentFile := by
    rw [noted, map_append, map_append, progress.noted, map_singleton, map_singleton, isFile]
  have distinct := accepted.currents
  rw [append_cons, map_append, nodup_append] at distinct
  have unnoted : commit.stagedFile ∉ (visited ++ [commit]).map currentFile := by
    intro isNoted
    exact distinct.2.2 _ isNoted _ (mem_map_of_mem isLater) takes
  have moves : commit.stagedFile ≠ commit.currentFile := by
    intro same
    apply unnoted
    rw [same]
    exact mem_map_of_mem (mem_append_right _ mem_cons_self)
  have withoutFiles := progress.recoverable.unwatch.turned
    (progress.fresh_current accepted) turned nofun
  -- a file that is not noted is left by the rollback as it is
  refine ⟨{ withoutFiles with found := ?_, untouched := ?_ }, allNoted⟩
  · intro state member isWatched
    rw [← allNoted, ← mem_singleton.mp isWatched] at unnoted
    exact absurd (mem_map_of_mem member) unnoted
  · intro watched isWatched _
    rw [mem_singleton.mp isWatched, media, if_neg moves, if_pos rfl]

theorem interrupted {file : String} (lost : Lost file visited start) {files : Path → Option Bytes}
    (accepted : Accepted files (visited ++ commit :: rest))
    (stopped : Interrupted commit.currentFile start final) :
    Recoverable (fun _ => none) [file] final := by
  apply lost.recoverable.interrupted _ stopped
  rw [lost.noted]
  exact accepted.fresh_current

theorem turned {file : String} (lost : Lost file visited start) {files : Path → Option Bytes}
    (accepted : Accepted files (visited ++ commit :: rest)) (turned : Turned commit start final) :
    Lost file (visited ++ [commit]) final := by
  obtain ⟨bytes, _, present, _⟩ := turned.moved
  obtain ⟨state, isFile, _, noted⟩ := turned.state
  constructor
  · apply lost.recoverable.turned _ turned
    · intro other isFile isNew _ same
      have missing := lost.recoverable.untouched other isFile isNew
      rw [same, present] at missing
      cases missing
    · rw [lost.noted]
      exact accepted.fresh_current
  · rw [noted, map_append, map_append, lost.noted, map_singleton, map_singleton, isFile]

end Lost

section Losing

variable {before after : List StagedVersionCommit} {commit later : StagedVersionCommit}
  (accepted : Accepted disk.files (before ++ commit :: after))
  (unstopped : Unstopped data (before ++ [commit]))
  (spared : ∀ visited earlier more, before = visited ++ earlier :: more →
    ∀ other ∈ more ++ commit :: after, earlier.stagedFile ≠ other.currentFile)
  (isLater : later ∈ after) (takes : commit.stagedFile = later.currentFile)

include accepted unstopped spared isLater takes

/-- The loop of a batch in which the turn of `commit`, the first to take the
canonical file of a later member, comes. -/
theorem losing_forEach (turns : environment.Turns) (steps : Nat) :
    Ensures ((disk.start.withData data).atStep steps)
      (Attempt.forEach (before ++ commit :: after) (activateMember environment))
      (fun _ => Recoverable (fun _ => none) [commit.stagedFile])
      (Recoverable (fun _ => none) [commit.stagedFile]) := by
  -- Up to the turn of the member the batch makes progress; from there on
  -- the file is lost.
  refine (Ensures.forEach (fun visited state =>
    (∃ more, before = visited ++ more ∧
      BatchProgress disk data visited (more ++ commit :: after) state) ∨
    Lost commit.stagedFile visited state) ?_ ?_).weaken ?_
    (fun _ stopped => stopped)
  · intro visited item rest state split holds
    rw [← split] at accepted
    rcases holds with ahead | lost
    · obtain ⟨more, isBefore, progress⟩ := ahead
      cases more with
      | nil =>
        rw [append_nil] at isBefore
        subst isBefore
        cases append_cancel_left split
        have goesOn := unstopped before commit [] rfl
        refine ((activateMember_turns commit).sure
          (progress.returns turns accepted goesOn) _).weaken ?_ (fun _ stopped => stopped)
        intro _ final turned
        exact .inr (Lost.begins progress accepted isLater takes turned)
      | cons first more =>
        have sameRest : item :: rest = first :: (more ++ commit :: after) := by
          rw [isBefore, append_assoc] at split
          exact append_cancel_left split
        obtain ⟨isFirst, isRest⟩ := cons.inj sameRest
        subst isFirst isRest
        have goesOn := unstopped visited item (more ++ [commit]) (by
          rw [isBefore, append_assoc]
          rfl)
        refine ((activateMember_turns item).sure
          (progress.returns turns accepted goesOn) _).weaken ?_ (fun _ stopped => stopped)
        intro _ final turned
        refine .inl ⟨more, ?_, ?_⟩
        · rw [isBefore, append_cons]
        · exact progress.turned accepted (spared visited item more isBefore) turned
    · apply (activateMember_turns item).weaken
      · intro _ final turned
        exact .inr (lost.turned accepted turned)
      · intro final stopped
        exact lost.interrupted accepted stopped
  · exact .inl ⟨before, rfl, BatchProgress.opened steps⟩
  · intro _ final ended
    rcases ended with ahead | lost
    · obtain ⟨more, tooLong, _⟩ := ahead
      have lengths := congrArg length tooLong
      simp only [length_append, length_cons] at lengths
      omega
    · exact lost.recoverable

omit accepted unstopped spared isLater takes in
theorem saveAndNotify_failing {start : Working Bytes} (given : Bool) :
    Ensures start (saveAndNotify codec (.failing (some .save)) given)
      (fun _ _ => False) (fun final => ∃ content steps,
        final = (start.write versionsFile content).atStep steps) := by
  refine ⟨?_, (saveAndNotify_ensures given).error⟩
  intro _ final ran
  cases ran

/-- With a failing write of the history the file is gone for good. -/
theorem losing_commit (decoded : disk.history? codec = some data) :
    ¬ AllOrNothing codec (.failing (some .save)) disk (before ++ commit :: after) onCommit := by
  have ensured : Ensures disk.start (commitStagedVersions codec (.failing (some .save))
        (before ++ commit :: after) onCommit)
      (fun _ _ => False) (fun final => final.toDisk.files (.media commit.stagedFile) = none) := by
    apply commitStagedVersions_ensures (by simp) (.inl ⟨accepted, by rw [decoded]; rfl,
        Environment.failing_works (by decide)⟩)
    · intro found steps _ isFound
      rw [decoded] at isFound
      cases isFound
      apply seq (losing_forEach accepted unstopped spared isLater takes
        (Environment.failing_turns (.inr rfl)) steps)
      intro _ state recoverable
      apply (saveAndNotify_failing onCommit).weaken
      · intro _ final never
        exact never
      · intro final failed
        obtain ⟨content, count, isFinal⟩ := failed
        rw [isFinal]
        exact recoverable.history content count
    · intro state never
      exact never
    · intro message failure state recoverable
      exact (recoverable.rollBack (fun _ => rfl) _ message failure).files _ mem_cons_self
  obtain ⟨ofReturn, ofRaise⟩ := Disk.run_ensures (fun _ _ => False)
    (fun final => final.files (.media commit.stagedFile) = none) ensured
  intro allOrNothing
  cases outcome : (disk.run (commitStagedVersions codec
    (.failing (some .save)) (before ++ commit :: after) onCommit)) with
  | mk answer final =>
    cases answer with
    | ok result => exact ofReturn result final outcome
    | error failure =>
      have missing := ofRaise failure final outcome
      have restored := (allOrNothing.raised failure final outcome).1 later
        (mem_append_right _ (mem_cons_of_mem _ isLater))
      have staged := accepted.staged commit (mem_append_right _ mem_cons_self)
      rw [takes] at missing staged
      rw [missing] at restored
      rw [← restored] at staged
      cases staged

end Losing

/-- By induction on the members ahead of the one that would lose a file. -/
theorem lossless_of_allOrNothing (accepted : Accepted disk.files commits)
    (decoded : disk.history? codec = some data)
    (holds : ∀ environment : Environment Bytes, environment.Restores →
      AllOrNothing codec environment disk commits onCommit) :
    Lossless data commits := by
  have ofLength : ∀ length before commit after, before.length = length →
      commits = before ++ commit :: after →
      Unstopped data (before ++ [commit]) →
      ∀ later ∈ after, commit.stagedFile ≠ later.currentFile := by
    intro length
    induction length using Nat.strong_induction_on with
    | _ length induction =>
      intro before commit after isLength split unstopped later isLater takes
      subst split
      refine losing_commit accepted unstopped ?_ isLater takes decoded (holds _ (fun _ => rfl))
      intro visited earlier more isBefore
      apply induction visited.length _ visited earlier (more ++ commit :: after) rfl
      · rw [isBefore, append_assoc]
        rfl
      · rw [isBefore, append_assoc, cons_append] at unstopped
        rw [append_cons] at unstopped
        exact unstopped.of_append
      · rw [← isLength, isBefore, length_append, length_cons]
        omega
  intro before commit after
  exact ofLength before.length before commit after rfl

/-! ## Batches in which a file is stolen -/

/-- With nothing failing the batch returns, and the staged files are gone. -/
theorem undisturbed_commit (nonempty : commits ≠ []) (accepted : Accepted disk.files commits)
    (decoded : disk.history? codec = some data)
    (lossless : Lossless data commits) (unstopped : Unstopped data commits) :
    Ensures disk.start (commitStagedVersions codec (.failing none) commits onCommit)
      (fun _ final => ∀ commit ∈ commits, commit.stagedFile ≠ commit.currentFile →
        final.toDisk.files (.media commit.stagedFile) = none)
      (fun _ => False) := by
  have turns : (Environment.failing none : Environment Bytes).Turns :=
    Environment.failing_turns (.inl rfl)
  have works : ∀ operation, (Environment.failing none : Environment Bytes).Works operation :=
    fun _ => Environment.failing_works (by simp)
  apply commitStagedVersions_ensures nonempty (.inl ⟨accepted, by rw [decoded]; rfl, works _⟩)
  · intro found steps _ isFound
    rw [decoded] at isFound
    cases isFound
    have turn : ∀ visited commit rest state, visited ++ commit :: rest = commits →
        BatchProgress disk data visited (commit :: rest) state →
        Ensures state (activateMember (.failing none) commit)
          (fun _ => Turned commit state) (fun _ => False) := by
      intro visited commit rest state split progress
      subst split
      exact (activateMember_turns commit).sure (progress.returns turns
        accepted (unstopped visited commit rest rfl)) _
    apply Ensures.bind (lossless.forEach_ensures accepted steps turn) (fun _ never => never)
    intro _ reached progress
    apply ((saveAndNotify_ensures onCommit).sure ?_ _).weaken
    · intro _ final settled
      exact (⟨reached, progress, settled⟩ : ∃ reached, BatchProgress disk data commits [] reached ∧
          Settled codec reached final)
    · intro final never
      exact never
    · apply Returns.bind (saveVersions_returns (works _) (works _))
      intro _ saved _
      unfold runCallback
      split
      · exact passStep_returns (works _) _
      · exact ⟨_, _, rfl⟩
  · intro final ended commit member moves
    obtain ⟨reached, progress, settled⟩ := ended
    rw [(progress.removeBackups settled).files (.media commit.stagedFile)
      nofun nofun]
    exact progress.consumed commit member moves
  · intro message failure state never
    exact never

theorem keepsCanonical_of_allOrNothing (accepted : Accepted disk.files commits)
    (decoded : disk.history? codec = some data)
    (lossless : Lossless data commits) (unstopped : Unstopped data commits)
    (holds : AllOrNothing codec (.failing none) disk commits onCommit) :
    KeepsCanonical commits := by
  apply pairwise_iff_forall_sublist.mpr
  intro earlier later inOrder takes
  have isEarlier : earlier ∈ commits := inOrder.subset mem_cons_self
  have isLater : later ∈ commits := inOrder.subset (mem_cons_of_mem _ mem_cons_self)
  have distinct := accepted.currents.sublist (inOrder.map currentFile)
  have moves : later.stagedFile ≠ later.currentFile := by
    rw [takes]
    intro same
    exact (nodup_cons.mp distinct).1 (mem_singleton.mpr same)
  obtain ⟨ofReturn, ofRaise⟩ := Disk.run_ensures
    (fun _ final => ∀ commit ∈ commits, commit.stagedFile ≠ commit.currentFile →
      final.files (.media commit.stagedFile) = none) (fun _ => False)
    (undisturbed_commit (ne_nil_of_mem isLater) accepted decoded lossless unstopped)
  cases outcome : disk.run (commitStagedVersions codec (.failing none) commits onCommit) with
  | mk answer final =>
    cases answer with
    | ok result =>
      have missing := ofReturn result final outcome later isLater moves
      obtain ⟨bytes, _, _, _, _, _, _, _, present, _⟩ :=
        holds.returned result final outcome earlier isEarlier
      rw [takes, present] at missing
      cases missing
    | error failure => exact ofRaise failure final outcome

/-- A batch is all or nothing, whatever fails, if and only if its members keep
to their own files. -/
theorem batch_all_or_nothing_iff (codec : VersionsCodec Bytes)
    (disk : Disk Bytes) (commits : List StagedVersionCommit) (onCommit : Bool) :
    (∀ environment : Environment Bytes, environment.Restores →
      AllOrNothing codec environment disk commits onCommit) ↔
    ∀ data, Accepted disk.files commits →
      disk.history? codec = some data → Separate data commits := by
  constructor
  · intro holds data accepted decoded
    have lossless := lossless_of_allOrNothing accepted decoded holds
    refine ⟨lossless, ?_⟩
    intro unstopped
    exact keepsCanonical_of_allOrNothing accepted decoded lossless unstopped
      (holds _ (fun _ => rfl))
  · intro separate environment restores
    exact allOrNothing_of_separate restores separate

def heroStaged : StagedVersionCommit :=
  { identity := hero
    prompt := "portrait"
    stagedFile := "drafts/hero.png"
    currentFile := "characters/hero.png"
    metadata := [] }

def rivalStaged : StagedVersionCommit :=
  { identity := ⟨"characters", "rival"⟩
    prompt := "portrait"
    stagedFile := "drafts/rival.png"
    currentFile := "characters/rival.png"
    metadata := [] }

/-- A draft for each of the two. -/
def pairDisk : Disk (String ⊕ VersionsData) :=
  (Event.media "drafts/rival.png" (some (.inl "rival"))).next sampleCodec draftDisk

theorem hero_batch_all_or_nothing : Accepted pairDisk.files [heroStaged, rivalStaged] ∧
      pairDisk.history? sampleCodec = some Dict.empty ∧
      ∀ environment, environment.Restores →
        AllOrNothing sampleCodec environment pairDisk [heroStaged, rivalStaged] true := by
  have alone : Accepted pairDisk.files [heroStaged] :=
    Accepted.nil.snoc (by decide) (by decide) rfl (by decide)
  have accepted : Accepted pairDisk.files [heroStaged, rivalStaged] :=
    alone.snoc (by decide) (by decide) rfl (by decide)
  refine ⟨accepted, rfl, ?_⟩
  apply (batch_all_or_nothing_iff sampleCodec pairDisk [heroStaged, rivalStaged] true).mpr
  intro data _ _
  refine ⟨?_, fun _ => by unfold KeepsCanonical; decide⟩
  intro before commit after split _ later isLater
  have apart : [heroStaged, rivalStaged].Pairwise
      (fun earlier later => earlier.stagedFile ≠ later.currentFile) := by decide
  rw [split] at apart
  exact (pairwise_cons.mp (pairwise_append.mp apart).2.1).1 later isLater

/-- A canonical file that another member has staged, and a draft for it. -/
def rivalDisk : Disk (String ⊕ VersionsData) :=
  { files := fun path =>
      if path = .media "characters/rival.png" then some (.inl "rival")
      else if path = .media "drafts/rival.png" then some (.inl "draft")
      else none
    temporaries := 0 }

def rivalBatch : List StagedVersionCommit :=
  [{ identity := hero
     prompt := "portrait"
     stagedFile := "characters/rival.png"
     currentFile := "characters/hero.png"
     metadata := [] },
   rivalStaged]

/-- The history cannot be written, every step of the rollback works, and the
canonical file of the second member is gone. -/
theorem failed_batch_loses_canonical_file : (Environment.failing (some .save) :
        Environment (String ⊕ VersionsData)).Restores ∧
      (rivalDisk.run (commitStagedVersions sampleCodec
        (.failing (some .save)) rivalBatch false)).1 = .error .osError ∧
      rivalDisk.files (.media "characters/rival.png") = some (.inl "rival") ∧
      (rivalDisk.run (commitStagedVersions sampleCodec
        (.failing (some .save)) rivalBatch false)).2.files (.media "characters/rival.png") = none :=
  ⟨fun _ => rfl, rfl, rfl, rfl⟩

end MatrixSpooll.Version
