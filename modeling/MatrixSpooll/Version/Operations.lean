import MatrixSpooll.Version.Transactions

/-!
# The operations on a sound history

For each operation: started on a sound history it leaves a sound history that
has grown out of the old one, whether it returns or raises, and when it
returns it has done what it is for.
-/

namespace MatrixSpooll.Version

open Library Attempt List Ensures

variable {Bytes : Type} {codec : VersionsCodec Bytes}
  {environment : Environment Bytes} {disk : Disk Bytes}
  {base : VersionsData} {identity : Identity}

/-- The history of `final` has grown out of `base`, and the snapshots that
`base` records are as they were on `disk`. -/
structure Advanced (codec : VersionsCodec Bytes) (disk : Disk Bytes)
    (base : VersionsData) (final : Disk Bytes) : Prop where
  snapshots : ∀ path, Registered base path → final.files path = disk.files path
  history : ∃ data, final.history? codec = some data ∧ Grown base data

theorem Advanced.unchanged (decoded : disk.history? codec = some base)
    (sound : SoundHistory base) {final : Disk Bytes}
    (same : final.files = disk.files) : Advanced codec disk base final := by
  constructor
  · intro path _
    rw [same]
  · refine ⟨base, ?_, Grown.refl sound⟩
    unfold Disk.history? at decoded ⊢
    rw [same]
    exact decoded

variable {working : Working Bytes}

theorem Saved.history?_eq (saved : Saved codec working) :
    working.toDisk.history? codec = some working.data := by
  unfold Saved at saved
  unfold Disk.history?
  rw [saved]
  exact codec.load_dump working.data

theorem Within.advanced (within : Within codec disk base working)
    (decoded : disk.history? codec = some base) :
    Advanced codec disk base working.toDisk := by
  constructor
  · exact within.kept
  · rcases within.stored with old | grown
    · refine ⟨base, ?_, Grown.refl within.ofBase⟩
      unfold Disk.history? at decoded ⊢
      rw [old]
      exact decoded
    · obtain ⟨data, isGrown, dumped⟩ := grown
      refine ⟨data, ?_, isGrown⟩
      unfold Disk.history?
      rw [dumped]
      exact codec.load_dump data

/-- What `Ensures` says of an operation on a sound history. -/
def Preserves {Value : Type} (codec : VersionsCodec Bytes)
    (disk : Disk Bytes) (base : VersionsData) (working : Working Bytes)
    (operation : Stage Bytes Value) (goal : Value → Working Bytes → Prop) : Prop :=
  Ensures working operation (fun value final => Advanced codec disk base final.toDisk ∧
      goal value final)
    (fun final => Advanced codec disk base final.toDisk)

section Fronts

variable {Value : Type} {goal : Value → Working Bytes → Prop} {working : Working Bytes}
  {rest : Unit → Stage Bytes Value}

section

variable (decoded : disk.history? codec = some base) (sound : SoundHistory base)
include decoded sound

section

variable (same : working.files = disk.files)
include same

theorem Preserves.checkResourceType {failure : VersionError}
    (ofRest : identity.resourceType ∈ resourceTypes →
      Preserves codec disk base working (rest ()) goal) :
    Preserves codec disk base working (checkResourceType identity failure >>= rest) goal := by
  apply Ensures.demand
  · intro _
    exact Advanced.unchanged decoded sound same
  · intro isSupported
    exact ofRest (contains_iff_mem.mp isSupported)

theorem Preserves.demand {condition : Working Bytes → Bool} {failure : Working Bytes → VersionError}
    (ofRest : condition working = true → Preserves codec disk base working (rest ()) goal) :
    Preserves codec disk base working (Attempt.demand condition failure >>= rest) goal := by
  apply Ensures.demand
  · intro _
    exact Advanced.unchanged decoded sound same
  · exact ofRest

theorem Preserves.readVersionsFile {rest : Option Bytes → Stage Bytes Value}
    (ofRest : ∀ steps, Preserves codec disk base (working.atStep steps)
      (rest (disk.files versionsFile)) goal) :
    Preserves codec disk base working (readVersionsFile environment >>= rest) goal := by
  apply Ensures.bind readVersionsFile_ensures
  · intro final failed
    obtain ⟨steps, isFinal⟩ := failed
    apply Advanced.unchanged decoded sound
    rw [isFinal]
    exact same
  intro snapshot final read
  obtain ⟨isSnapshot, steps, isFinal⟩ := read
  subst isFinal isSnapshot
  rw [same]
  exact ofRest steps

end

theorem Preserves.loadVersions {steps : Nat} (ofRest : ∀ steps,
      Within codec disk base ((disk.start.withData base).atStep steps) →
      Preserves codec disk base ((disk.start.withData base).atStep steps) (rest ()) goal) :
    Preserves codec disk base (disk.start.atStep steps)
      (loadVersions codec environment >>= rest) goal := by
  apply Ensures.bind loadVersions_ensures
  · intro final failed
    obtain ⟨steps', isFinal⟩ := failed
    apply Advanced.unchanged decoded sound
    rw [isFinal]
    rfl
  intro _ final loaded
  obtain ⟨data, steps', isData, isFinal⟩ := loaded
  have isBase : some data = some base := isData.symm.trans decoded
  cases isBase
  subst isFinal
  exact ofRest steps' (Within.opened sound steps')

omit sound in
/-- A guarded transaction that has written the history when it returns, with
the clean-up behind it. -/
theorem Preserves.transaction {Inner : Type} {body : Stage Bytes Inner}
    {rest : Inner → Stage Bytes Value} {reached : Working Bytes → Prop}
    (steady : Steady reached) (ofBody : Ensures working body
      (fun _ => Committed codec disk base reached) (Within codec disk base)) (message : String)
    (ofRest : ∀ value final, Committed codec disk base reached final →
      Preserves codec disk base final (rest value) goal) :
    Preserves codec disk base working (do
        let value ← body.orUndo (rollBack environment (disk.files versionsFile) message)
        removeLeftovers environment Working.backups
        rest value) goal := by
  apply Ensures.bind (ofBody.orUndo (fun failure state interrupted =>
    (interrupted.rollBack rfl message failure)))
  · intro final within
    exact within.advanced decoded
  intro value final committed
  apply Ensures.change
  exact ofRest value _ (committed.removeBackups steady)

end

end Fronts

/-! ## Committing staged media -/

theorem Keeps.move {number : Nat} {bytes : Bytes} (keeps : Keeps identity number bytes working)
    (source target : String) (moved : Bytes) :
    Keeps identity number bytes (working.move (.media source) (.media target) moved) := by
  refine keeps.carry rfl ?_
  intro timestamp
  rw [Working.files_move, if_neg nofun, if_neg nofun]

/-- A registered and selected version whose source becomes the canonical
file. -/
theorem Registers.replaced {source currentFile : String}
    {start middle : Working Bytes} {version : Int}
    (registers : Registers identity source true start version middle)
    {bytes : Bytes} (present : middle.files (.media source) = some bytes) (steps : Nat) :
    Selects identity currentFile ((middle.move (.media source) (.media currentFile) bytes).atStep
        steps) := by
  obtain ⟨number, copied, _, wasPresent, keeps, points⟩ := registers.numbered
  rw [registers.media source, wasPresent] at present
  cases present
  refine ⟨number, bytes, points rfl, keeps.move source currentFile bytes, ?_⟩
  exact (Working.files_move _ _ _ _ _).trans (if_pos rfl)

theorem replaceFile_within (within : Within codec disk base working) (source target : String) :
    Ensures working (replaceFile environment (.media source) (.media target))
      (fun _ final => Within codec disk base final ∧ ∃ bytes steps,
        working.files (.media source) = some bytes ∧ final =
          (working.move (.media source) (.media target) bytes).atStep steps)
      (Within codec disk base) := by
  have media := Free.media within.ofBase
  apply (replaceFile_ensures (.media source) (.media target)).weaken
  · intro _ final replaced
    obtain ⟨bytes, steps, present, isFinal⟩ := replaced
    refine ⟨?_, bytes, steps, present, isFinal⟩
    rw [isFinal]
    exact (within.move (media source) (media target) bytes).atStep steps
  · intro final failed
    obtain ⟨steps, isFinal⟩ := failed
    rw [isFinal]
    exact within.atStep steps

theorem activateStaged_ensures (within : Within codec disk base working)
    (supported : identity.resourceType ∈ resourceTypes)
    (prompt stagedFile currentFile : String) (onCommit : Bool)
    {metadata : List (String × Json)} (extra : ExtraOnly metadata) :
    Ensures working (activateStaged codec environment identity prompt stagedFile
        currentFile onCommit metadata)
      (fun _ => Committed codec disk base (Selects identity currentFile))
      (Within codec disk base) := by
  unfold activateStaged
  apply passStep_then within.atStep
  intro steps
  apply Ensures.bind ((within.atStep steps).backUpCurrent_ensures currentFile)
    (fun _ stopped => stopped.1)
  intro _ backed ofBacked
  apply seq (ofBacked.1.trackCurrent_ensures supported currentFile rememberedVersion)
  intro _ tracked ofTracked
  apply seq (ofTracked.1.appendVersion_ensures supported stagedFile
    prompt extra rememberedVersion true)
  intro version appended ofAppended
  obtain ⟨still, registers⟩ := ofAppended
  apply seq (replaceFile_within still stagedFile currentFile)
  intro _ replaced ofReplaced
  obtain ⟨ofReplaced, bytes, steps', present, isReplaced⟩ := ofReplaced
  have selected : Selects identity currentFile replaced := by
    rw [isReplaced]
    exact registers.replaced present steps'
  apply Ensures.bind (ofReplaced.close (Selects.steady identity currentFile)
    selected onCommit) (fun _ stopped => stopped.1)
  intro _ final committed
  exact Ensures.pure committed

theorem commitStagedVersion_preserves
    (decoded : disk.history? codec = some base) (sound : SoundHistory base)
    (prompt stagedFile currentFile : String) (onCommit : Bool)
    {metadata : List (String × Json)} (extra : ExtraOnly metadata) :
    Preserves codec disk base disk.start
      (commitStagedVersion codec environment identity prompt stagedFile
        currentFile onCommit metadata)
      (fun _ final => Saved codec final ∧ Selects identity currentFile final) := by
  unfold commitStagedVersion
  apply Preserves.checkResourceType decoded sound rfl
  intro supported
  apply Preserves.demand decoded sound rfl
  intro _
  apply Preserves.readVersionsFile decoded sound rfl
  intro first
  apply Preserves.loadVersions decoded sound
  intro steps opened
  apply Ensures.change
  apply Preserves.transaction decoded (Selects.steady identity currentFile)
    (activateStaged_ensures (opened.observed currentFile _) supported prompt
      stagedFile currentFile onCommit extra)
  intro version final committed
  exact Ensures.pure ⟨committed.within.advanced decoded, committed.saved, committed.reached⟩

/-! ## Committing a batch -/

/-- What the checks on a batch have established. -/
structure Accepted (files : Path → Option Bytes) (commits : List StagedVersionCommit) : Prop where
  supported : ∀ commit ∈ commits, commit.identity.resourceType ∈ resourceTypes
  staged : ∀ commit ∈ commits, (files (.media commit.stagedFile)).isSome = true
  identities : (commits.map StagedVersionCommit.identity).Nodup
  currents : (commits.map StagedVersionCommit.currentFile).Nodup

variable {files : Path → Option Bytes}

theorem Accepted.nil : Accepted files [] :=
  { supported := nofun
    staged := nofun
    identities := nodup_nil
    currents := nodup_nil }

variable {before : List StagedVersionCommit} {commit : StagedVersionCommit}

theorem Accepted.snoc (accepted : Accepted files before)
    (supported : commit.identity.resourceType ∈ resourceTypes)
    (newIdentity : commit.identity ∉ before.map StagedVersionCommit.identity)
    (staged : (files (.media commit.stagedFile)).isSome = true) (newCurrent : commit.currentFile ∉
      before.map StagedVersionCommit.currentFile) :
    Accepted files (before ++ [commit]) := by
  constructor
  · exact forall_mem_append.mpr ⟨accepted.supported, forall_mem_singleton.mpr supported⟩
  · exact forall_mem_append.mpr ⟨accepted.staged, forall_mem_singleton.mpr staged⟩
  · rw [map_append, map_singleton, ← concat_eq_append, nodup_concat]
    exact ⟨newIdentity, accepted.identities⟩
  · rw [map_append, map_singleton, ← concat_eq_append, nodup_concat]
    exact ⟨newCurrent, accepted.currents⟩

theorem checkMember_ensures (accepted : Accepted working.files before) :
    Ensures working (checkMember before commit) (fun _ final => final = working ∧
        Accepted working.files (before ++ [commit]))
      (fun final => final = working) := by
  refine Ensures.demand (fun _ => rfl) (fun supported => ?_)
  refine Ensures.demand (fun _ => rfl) (fun newIdentity => ?_)
  refine Ensures.demand (fun _ => rfl) (fun staged => ?_)
  refine demand_last (fun _ => rfl) (fun newCurrent => ?_)
  exact ⟨rfl, accepted.snoc (contains_iff_mem.mp supported)
    (of_decide_eq_true newIdentity) staged (of_decide_eq_true newCurrent)⟩

variable {commits : List StagedVersionCommit}

theorem checkBatch_ensures (accepted : Accepted working.files before) :
    Ensures working (checkBatch before commits) (fun _ final => final = working ∧
        Accepted working.files (before ++ commits))
      (fun final => final = working) := by
  induction commits generalizing before with
  | nil =>
    apply Ensures.pure
    rw [append_nil]
    exact ⟨rfl, accepted⟩
  | cons commit rest induction =>
    apply seq (checkMember_ensures accepted)
    intro _ final passed
    obtain ⟨same, ofMore⟩ := passed
    subst same
    rw [append_cons before commit rest]
    exact induction ofMore

theorem Accepted.of_append {first second : List StagedVersionCommit}
    (accepted : Accepted files (first ++ second)) : Accepted files first :=
  { supported := fun commit member =>
      accepted.supported commit (mem_append_left second member)
    staged := fun commit member => accepted.staged commit (mem_append_left second member)
    identities := accepted.identities.sublist ((sublist_append_left first second).map _)
    currents := accepted.currents.sublist ((sublist_append_left first second).map _) }

namespace Accepted

variable {files : Path → Option Bytes} {visited : List StagedVersionCommit}
  {commit earlier : StagedVersionCommit}

theorem fresh_identity {rest : List StagedVersionCommit}
    (accepted : Accepted files (visited ++ commit :: rest)) :
    commit.identity ∉ visited.map StagedVersionCommit.identity := by
  have distinct := accepted.identities
  rw [map_append, nodup_append] at distinct
  intro member
  exact distinct.2.2 _ member _ mem_cons_self rfl

theorem fresh_current {rest : List StagedVersionCommit}
    (accepted : Accepted files (visited ++ commit :: rest)) :
    commit.currentFile ∉ visited.map StagedVersionCommit.currentFile := by
  have distinct := accepted.currents
  rw [map_append, nodup_append] at distinct
  intro member
  exact distinct.2.2 _ member _ mem_cons_self rfl

variable (accepted : Accepted files (visited ++ [commit]))
include accepted

variable (member : earlier ∈ visited)
include member

theorem other_identity : earlier.identity ≠ commit.identity := by
  intro same
  apply accepted.fresh_identity
  rw [← same]
  exact mem_map_of_mem member

theorem other_current : earlier.currentFile ≠ commit.currentFile := by
  intro same
  apply accepted.fresh_current
  rw [← same]
  exact mem_map_of_mem member

theorem supported_earlier : earlier.identity.resourceType ∈ resourceTypes :=
  accepted.supported earlier (mem_append_left _ member)

end Accepted

/-- Registering a version of one resource keeps the selection of another. -/
theorem Registers.keeps_selection {source currentFile : String}
    {selects : Bool} {start final : Working Bytes} {version : Int}
    (registers : Registers identity source selects start version final)
    {other : Identity} (different : other ≠ identity)
    (supported : other.resourceType ∈ resourceTypes) (selected : Selects other currentFile start) :
    Selects other currentFile final :=
  selected.carry (registers.otherData other different) (registers.media currentFile)
    (fun number timestamp => registers.otherSnapshots other number timestamp different supported)

/-- A turn of the batch keeps the selections made before it, unless it takes
a canonical file of theirs as its staged file. -/
theorem activateMember_ensures {visited : List StagedVersionCommit}
    (within : Within codec disk base working) (accepted : Accepted disk.files (visited ++ [commit]))
    (extra : ExtraOnly commit.metadata)
    (apart : ∀ earlier ∈ visited, commit.stagedFile ≠ earlier.currentFile)
    (selected : ∀ earlier ∈ visited, Selects earlier.identity earlier.currentFile working) :
    Ensures working (activateMember environment commit)
      (fun _ final => Within codec disk base final ∧ ∀ member ∈ visited ++ [commit],
          Selects member.identity member.currentFile final)
      (Within codec disk base) := by
  have isLast : commit ∈ visited ++ [commit] := mem_append_right _ mem_cons_self
  have supported := accepted.supported commit isLast
  unfold activateMember
  apply passStep_then within.atStep
  intro steps
  apply Ensures.bind (rememberCurrent_ensures commit.currentFile)
  · intro final beside
    exact (within.atStep steps).beside beside
  intro _ remembered ofRemembered
  obtain ⟨middle, state, beside, _, found, isRemembered⟩ := ofRemembered
  subst isRemembered
  have stillWithin := ((within.atStep steps).beside beside).remember found.temporary
  have stillSelected : ∀ earlier ∈ visited, Selects earlier.identity
      earlier.currentFile (middle.remember state) := by
    intro earlier member
    apply Selects.steady _ _ working _ (selected earlier member) beside.data
    intro path _ notTemporary
    exact beside.files path (fun index same => absurd same (notTemporary index))
  apply seq (stillWithin.trackCurrent_ensures supported commit.currentFile rememberedNonnegative)
  intro _ tracked ofTracked
  obtain ⟨trackedWithin, sameOrRegistered⟩ := ofTracked
  have trackedSelected : ∀ earlier ∈ visited,
      Selects earlier.identity earlier.currentFile tracked := by
    intro earlier member
    rcases sameOrRegistered with same | registered
    · rw [same]
      exact stillSelected earlier member
    · obtain ⟨version, registers⟩ := registered
      exact registers.keeps_selection (accepted.other_identity member)
        (accepted.supported_earlier member) (stillSelected earlier member)
  apply seq (trackedWithin.appendVersion_ensures supported
    commit.stagedFile commit.prompt extra rememberedNonnegative true)
  intro version appended ofAppended
  obtain ⟨appendedWithin, registers⟩ := ofAppended
  apply seq (replaceFile_within appendedWithin commit.stagedFile commit.currentFile)
  intro _ replaced ofReplaced
  obtain ⟨replacedWithin, bytes, steps', present, isReplaced⟩ := ofReplaced
  apply change_last
  refine ⟨replacedWithin.withResult _, ?_⟩
  intro member isMember
  rcases mem_append.mp isMember with earlier | isCommit
  · have before := registers.keeps_selection (accepted.other_identity earlier)
      (accepted.supported_earlier earlier) (trackedSelected member earlier)
    have notStaged : Path.media member.currentFile ≠ .media commit.stagedFile := by
      intro same
      exact apart member earlier (Path.media.inj same).symm
    have notCurrent : Path.media member.currentFile ≠ .media commit.currentFile := by
      intro same
      exact accepted.other_current earlier (Path.media.inj same)
    subst isReplaced
    refine before.carry rfl ?_ ?_
    · exact (Working.files_move _ _ _ _ _).trans ((if_neg notCurrent).trans (if_neg notStaged))
    · intro number timestamp
      exact (Working.files_move _ _ _ _ _).trans ((if_neg nofun).trans (if_neg nofun))
  · rw [mem_singleton.mp isCommit]
    have selects : Selects commit.identity commit.currentFile replaced := by
      rw [isReplaced]
      exact registers.replaced present steps'
    exact selects.carry rfl rfl (fun _ _ => rfl)

/-- Every member of a batch has been selected. -/
def BatchSelects (commits : List StagedVersionCommit) (working : Working Bytes) : Prop :=
  ∀ commit ∈ commits, Selects commit.identity commit.currentFile working

theorem BatchSelects.steady (commits : List StagedVersionCommit) :
    Steady (fun working : Working Bytes => BatchSelects commits working) := by
  intro start final selects sameData sameFiles commit member
  exact Selects.steady _ _ start final (selects commit member) sameData sameFiles

/-- No member takes the canonical file of an earlier one as its staged
file. -/
def KeepsCanonical (commits : List StagedVersionCommit) : Prop :=
  commits.Pairwise (fun earlier later => later.stagedFile ≠ earlier.currentFile)

theorem activateBatch_ensures (within : Within codec disk base working)
    (accepted : Accepted disk.files commits) (extra : ∀ commit ∈ commits, ExtraOnly commit.metadata)
    (apart : KeepsCanonical commits) (onCommit : Bool) :
    Ensures working (activateBatch codec environment commits onCommit)
      (fun _ => Committed codec disk base (BatchSelects commits)) (Within codec disk base) := by
  unfold activateBatch
  refine Ensures.seq (Ensures.forEach (fun visited state =>
    Within codec disk base state ∧ BatchSelects visited state) ?_ ?_) ?_
  · intro visited commit rest state split before
    subst split
    have member : commit ∈ visited ++ commit :: rest := mem_append_right _ mem_cons_self
    have acceptedHere : Accepted disk.files (visited ++ [commit]) := by
      rw [append_cons] at accepted
      exact accepted.of_append
    have apartHere := (pairwise_append.mp apart).2.2
    exact activateMember_ensures before.1 acceptedHere (extra commit member)
      (fun earlier isEarlier => apartHere earlier isEarlier commit mem_cons_self) before.2
  · refine ⟨within, ?_⟩
    intro commit member
    cases member
  · intro _ final ended
    apply (ended.1.close (BatchSelects.steady commits) ended.2
      onCommit).weaken (fun _ _ committed => committed)
    intro state stopped
    exact stopped.1

theorem commitStagedVersions_preserves
    (decoded : disk.history? codec = some base) (sound : SoundHistory base)
    (extra : ∀ commit ∈ commits, ExtraOnly commit.metadata)
    (apart : KeepsCanonical commits) (onCommit : Bool) :
    Preserves codec disk base disk.start (commitStagedVersions codec environment commits onCommit)
      (fun _ final => commits = [] ∨ (Saved codec final ∧ BatchSelects commits final)) := by
  unfold commitStagedVersions
  split
  · exact Ensures.pure ⟨Advanced.unchanged decoded sound rfl, .inl rfl⟩
  unfold commitBatch
  apply Ensures.bind (checkBatch_ensures Accepted.nil)
  · intro final same
    rw [same]
    exact Advanced.unchanged decoded sound rfl
  intro _ checked passed
  obtain ⟨same, accepted⟩ := passed
  subst same
  apply Preserves.readVersionsFile decoded sound rfl
  intro first
  apply Preserves.loadVersions decoded sound
  intro steps opened
  apply Preserves.transaction decoded (BatchSelects.steady _)
    (activateBatch_ensures opened accepted extra apart onCommit)
  intro _ final committed
  apply read_last
  exact ⟨committed.within.advanced decoded, .inr ⟨committed.saved, committed.reached⟩⟩

end MatrixSpooll.Version
