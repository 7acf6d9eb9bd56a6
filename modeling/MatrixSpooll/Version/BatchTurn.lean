import MatrixSpooll.Version.Stages

/-!
# One turn of a batch commit

A turn changes no media file before its last step, the replacement of the
canonical file; everything ahead of that makes temporary files and snapshots.
So a turn that raises leaves every media file alone, and what it has noted for
the rollback describes the canonical file as it still is.
-/

namespace MatrixSpooll.Version

open Library Attempt Working

variable {Bytes : Type} {environment : Environment Bytes} {start middle final : Working Bytes}

/-- The name of a snapshot of some version. -/
def IsSnapshot (path : Path) : Prop :=
  ∃ identity version timestamp, path = .managed (versionRelPath identity version timestamp)

structure Prepares (start final : Working Bytes) : Prop where
  media : ∀ file, final.files (.media file) = start.files (.media file)
  history : final.files versionsFile = start.files versionsFile
  older : ∀ index, index < start.temporaries →
    final.files (.temporary index) = start.files (.temporary index)
  temporaries : start.temporaries ≤ final.temporaries
  created : ∀ path ∈ final.createdSnapshots, path ∈ start.createdSnapshots ∨ IsSnapshot path

namespace Prepares

theorem refl (start : Working Bytes) : Prepares start start :=
  { media := fun _ => rfl
    history := rfl
    older := fun _ _ => rfl
    temporaries := Nat.le_refl _
    created := fun _ member => .inl member }

theorem trans (first : Prepares start middle)
    (second : Prepares middle final) : Prepares start final := by
  constructor
  · intro file
    exact (second.media file).trans (first.media file)
  · exact second.history.trans first.history
  · intro index isOlder
    have grown := first.temporaries
    exact (second.older index (by omega)).trans (first.older index isOlder)
  · exact Nat.le_trans first.temporaries second.temporaries
  · intro path member
    rcases second.created path member with inMiddle | isNew
    · exact first.created path inMiddle
    · exact .inr isNew

theorem of_beside (beside : Beside start final) : Prepares start final := by
  constructor
  · intro file
    exact beside.files _ nofun
  · exact beside.files _ nofun
  · intro index isOlder
    apply beside.files
    intro other same
    cases same
    exact isOlder
  · exact beside.temporaries
  · intro path member
    rw [beside.createdSnapshots] at member
    exact .inl member

theorem atStep (start : Working Bytes) (steps : Nat) : Prepares start (start.atStep steps) :=
  of_beside (Beside.atStep start steps)

theorem remember (start : Working Bytes) (state : CurrentState) :
    Prepares start (start.remember state) :=
  { refl start with }

theorem write (start : Working Bytes) (identity : Identity) (version : Int)
    (timestamp : Timestamp) (content : Option Bytes) :
    Prepares start (start.write
      (.managed (versionRelPath identity version timestamp)) content) := by
  constructor
  · intro file
    rw [files_write, if_neg nofun]
  · rw [files_write, if_neg (versionRelPath_ne_versionsFile identity version timestamp).symm]
  · intro index _
    rw [files_write, if_neg nofun]
  · exact Nat.le_refl _
  · intro path member
    exact .inl member

theorem unappended {identity : Identity}
    (stopped : Unappended identity start final) : Prepares start final := by
  obtain ⟨steps, same | written⟩ := stopped
  · rw [same]
    exact atStep start steps
  · obtain ⟨version, timestamp, content, _, isFinal⟩ := written
    rw [isFinal, projectFile_versionRelPath]
    exact (write start identity version timestamp content).trans (atStep _ steps)

theorem appended {identity : Identity} {source prompt : String}
    {metadata : List (String × Json)} {remember : Json → Int} {selects : Bool} {version : Int}
    (appended : Appended identity source prompt metadata remember selects
      start version final) : Prepares start final := by
  obtain ⟨bytes, timestamp, createdAt, steps, _, isFinal⟩ := appended.byCopy
  rw [projectFile_versionRelPath] at isFinal
  subst isFinal
  have written := write start identity version timestamp (some bytes)
  constructor
  · exact written.media
  · exact written.history
  · exact written.older
  · exact Nat.le_refl _
  · intro path member
    rcases List.mem_append.mp member with older | isNew
    · exact .inl older
    · exact .inr ⟨identity, version, timestamp, List.mem_singleton.mp isNew⟩

end Prepares

theorem Found.prepared {state : CurrentState}
    (found : Found start middle state) (prepares : Prepares middle final) :
    Found start final state := by
  rcases found with missing | present
  · exact .inl missing
  · obtain ⟨index, existed, named, newer, older, isSome, copied⟩ := present
    refine .inr ⟨index, existed, named, newer, ?_, isSome, ?_⟩
    · exact Nat.lt_of_lt_of_le older prepares.temporaries
    · rw [prepares.older index older]
      exact copied

/-- A turn that raised. -/
structure Interrupted (currentFile : String) (start final : Working Bytes) : Prop where
  prepares : Prepares start final
  states : final.currentStates = start.currentStates ∨
    ∃ state, state.currentFile = currentFile ∧ Found start final state ∧
      final.currentStates = start.currentStates ++ [state]

/-- The record that a member's turn has appended and selected. -/
structure Enrolled (commit : StagedVersionCommit) (bytes : Bytes)
    (working : Working Bytes) (version : Int) : Prop where
  registered : ∃ resource timestamp createdAt previous,
    working.data.get? commit.identity = some resource ∧
    resource.currentVersion = .int version ∧
    resource.versions.getLast? = some (newRecord version
      (versionRelPath commit.identity version timestamp) commit.prompt
      createdAt commit.metadata previous) ∧
    working.files (.managed (versionRelPath commit.identity version timestamp)) = some bytes
  reported : (commit.identity, version) ∈ working.result

/-- A turn that returned. -/
structure Turned (commit : StagedVersionCommit) (start final : Working Bytes) : Prop where
  numbered : (nextVersion (start.resource commit.identity).versions).isSome = true
  older : ∀ index, index < start.temporaries →
    final.files (.temporary index) = start.files (.temporary index)
  temporaries : start.temporaries ≤ final.temporaries
  created : ∀ path ∈ final.createdSnapshots, path ∈ start.createdSnapshots ∨ IsSnapshot path
  history : final.files versionsFile = start.files versionsFile
  state : ∃ state, state.currentFile = commit.currentFile ∧ Found start final state ∧
    final.currentStates = start.currentStates ++ [state]
  otherData : ∀ other, other ≠ commit.identity → final.data.get? other = start.data.get? other
  otherSnapshots : ∀ other version timestamp, other ≠ commit.identity →
    commit.identity.resourceType ∈ resourceTypes →
    other.resourceType ∈ resourceTypes →
    final.files (.managed (versionRelPath other version timestamp)) =
      start.files (.managed (versionRelPath other version timestamp))
  kept : ∀ entry ∈ start.result, entry ∈ final.result
  moved : ∃ bytes version, start.files (.media commit.stagedFile) = some bytes ∧
    Enrolled commit bytes final version ∧
    ∀ file, final.files (.media file) =
      if file = commit.currentFile then some bytes
      else if file = commit.stagedFile then none
      else start.files (.media file)

theorem Unappended.states {identity : Identity} (stopped : Unappended identity start final) :
    final.currentStates = start.currentStates := by
  obtain ⟨steps, same | written⟩ := stopped
  · rw [same]
    rfl
  · obtain ⟨version, timestamp, content, _, isFinal⟩ := written
    rw [isFinal]
    rfl

/-- The record of the source whose bytes the snapshot now holds. -/
theorem Appended.enrolled {commit : StagedVersionCommit} {remember : Json → Int} {version : Int}
    (appended : Appended commit.identity commit.stagedFile commit.prompt
      commit.metadata remember true start version final) :
    ∃ bytes timestamp createdAt previous resource,
      start.files (.media commit.stagedFile) = some bytes ∧
      final.data.get? commit.identity = some resource ∧
      resource.currentVersion = .int version ∧
      resource.versions.getLast? = some (newRecord version
        (versionRelPath commit.identity version timestamp) commit.prompt
        createdAt commit.metadata previous) ∧
      final.files (.managed (versionRelPath commit.identity version timestamp)) = some bytes := by
  obtain ⟨bytes, timestamp, createdAt, steps, present, isFinal⟩ := appended.byCopy
  rw [projectFile_versionRelPath] at isFinal
  subst isFinal
  exact ⟨bytes, timestamp, createdAt, _, _, present,
    get?_putResource _ _ _, rfl, List.getLast?_concat,
    (files_write _ _ _ _).trans (if_pos rfl)⟩

theorem activateMember_turns (commit : StagedVersionCommit) :
    Ensures start (activateMember environment commit) (fun _ => Turned commit start)
      (Interrupted commit.currentFile start) := by
  unfold activateMember
  apply passStep_then
  · intro steps
    exact ⟨Prepares.atStep start steps, .inl rfl⟩
  intro steps
  apply Ensures.bind (rememberCurrent_ensures commit.currentFile)
  · intro stopped beside
    exact ⟨(Prepares.atStep start steps).trans (.of_beside beside), .inl beside.currentStates⟩
  intro _ remembered isRemembered
  obtain ⟨backed, state, beside, isFile, found, isRemembered⟩ := isRemembered
  subst isRemembered
  have prepared := ((Prepares.atStep start steps).trans
    (.of_beside beside)).trans (.remember backed state)
  have foundNow : Found start (backed.remember state) state :=
    Found.prepared found (.remember backed state)
  have noted : (backed.remember state).currentStates = start.currentStates ++ [state] :=
      congrArg (· ++ [state]) beside.currentStates
  -- From here on a raise leaves the note of the canonical file behind.
  have interrupted : ∀ stopped, Prepares (backed.remember state) stopped →
      stopped.currentStates = (backed.remember state).currentStates →
      Interrupted commit.currentFile start stopped := by
    intro stopped further sameStates
    refine ⟨prepared.trans further, .inr ⟨state, isFile,
      foundNow.prepared further, sameStates.trans noted⟩⟩
  apply Ensures.bind (trackCurrent_ensures commit.identity commit.currentFile rememberedNonnegative)
  · intro stopped unappended
    exact interrupted stopped (.unappended unappended) unappended.states
  intro _ tracked isTracked
  obtain ⟨ofTracked, beforehand⟩ : Prepares (backed.remember state) tracked ∧
        Confined commit.identity (backed.remember state) tracked := by
    rcases isTracked with same | appended
    · rw [same]
      exact ⟨.refl _, rfl, rfl, fun _ _ => rfl, fun _ _ _ _ _ _ => rfl⟩
    · obtain ⟨version, appended⟩ := appended
      exact ⟨.appended appended, appended.confined⟩
  apply Ensures.bind (appendVersion_ensures commit.identity commit.stagedFile
    commit.prompt commit.metadata rememberedNonnegative true)
  · intro stopped unappended
    exact interrupted stopped (ofTracked.trans (.unappended unappended))
      (unappended.states.trans beforehand.states)
  intro version appended isAppended
  have confined := isAppended.confined
  have sameStates := confined.states.trans beforehand.states
  have ofAppended := ofTracked.trans (.appended isAppended)
  have allPrepared := prepared.trans ofAppended
  apply Ensures.bind (replaceFile_ensures _ _)
  · intro stopped failed
    obtain ⟨steps', isStopped⟩ := failed
    rw [isStopped]
    exact interrupted _ (ofAppended.trans (.atStep appended steps')) sameStates
  intro _ replaced isReplaced
  obtain ⟨bytes, steps', present, isReplaced⟩ := isReplaced
  subst isReplaced
  have outside : ∀ path, (∀ file, path ≠ .media file) →
      (appended.move (.media commit.stagedFile) (.media commit.currentFile)
        bytes).files path = appended.files path := by
    intro path notMedia
    rw [files_move, if_neg (notMedia _), if_neg (notMedia _)]
  apply Ensures.change_last
  constructor
  · have ofRecords : nextVersion ((backed.remember state).resource
        commit.identity).versions ≠ none := by
      rcases isTracked with same | tracks
      · have taken := isAppended.ofNumber
        rw [same] at taken
        rw [taken]
        simp
      · obtain ⟨_, tracks⟩ := tracks
        rw [tracks.ofNumber]
        simp
    exact Option.isSome_iff_ne_none.mpr (beside.resource commit.identity ▸ ofRecords)
  · intro index isOlder
    exact (outside _ (fun _ same => by cases same)).trans (allPrepared.older index isOlder)
  · exact allPrepared.temporaries
  · exact allPrepared.created
  · exact (outside _ (fun _ same => by cases same)).trans allPrepared.history
  · refine ⟨state, isFile, ?_, ?_⟩
    · rcases foundNow.prepared ofAppended with missing | there
      · exact .inl missing
      · obtain ⟨index, existed, named, newer, older, isSome, copied⟩ := there
        refine .inr ⟨index, existed, named, newer, older, isSome, ?_⟩
        exact (outside _ (fun _ same => by cases same)).trans copied
    · exact sameStates.trans noted
  · intro other different
    exact (confined.data other different).trans ((beforehand.data other different).trans
        (congrArg (Dict.get? · other) beside.data))
  · intro other number timestamp different supported otherSupported
    refine (outside _ (fun _ same => by cases same)).trans
      ((confined.snapshots other number timestamp different supported
        otherSupported).trans ((beforehand.snapshots other number timestamp
          different supported otherSupported).trans ?_))
    exact beside.files _ nofun
  · intro entry member
    apply List.mem_append_left
    show entry ∈ appended.result
    rw [confined.result, beforehand.result]
    exact beside.result ▸ member
  · obtain ⟨copied, timestamp, createdAt, previous, resource, wasThere, stored,
      isCurrent, isLast, held⟩ := isAppended.enrolled
    have isBytes : copied = bytes := by
      have same := (Prepares.appended isAppended).media commit.stagedFile
      rw [present, wasThere] at same
      exact (Option.some.inj same).symm
    subst isBytes
    refine ⟨copied, version, ?_, ?_, ?_⟩
    · rw [← present, allPrepared.media]
    · refine ⟨⟨resource, timestamp, createdAt, previous, stored, isCurrent,
        isLast, ?_⟩, List.mem_append_right _ List.mem_cons_self⟩
      exact (outside _ (fun _ same => by cases same)).trans held
    · intro file
      refine (files_move _ _ _ _ _).trans ?_
      rw [allPrepared.media file]
      simp only [Path.media.injEq]

end MatrixSpooll.Version
