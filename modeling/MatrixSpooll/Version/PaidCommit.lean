import MatrixSpooll.Version.Operations

/-!
# Paid versions

A paid result is in the history before anything is selected.  If the selection
fails the pointer goes back to a number that is recorded, so the history stays
sound with the paid version in it.
-/

namespace MatrixSpooll.Version

open Library Attempt List Working

variable {Bytes : Type} {codec : VersionsCodec Bytes}
  {environment : Environment Bytes} {disk : Disk Bytes}
  {base : VersionsData} {identity : Identity}

/-- The number is `0` or one of the resource's versions. -/
def Known (identity : Identity) (number : Nat) (working : Working Bytes) : Prop :=
  number = 0 ∨ ∃ record ∈ recordsOf working.data identity, Records identity record number

variable {number : Nat}

theorem Known.of_prefix {start final : Working Bytes} (known : Known identity number start)
    (longer : recordsOf start.data identity <+: recordsOf final.data identity) :
    Known identity number final := by
  rcases known with isZero | recorded
  · exact .inl isZero
  · obtain ⟨record, member, carries⟩ := recorded
    exact .inr ⟨record, longer.subset member, carries⟩

variable {working : Working Bytes}

theorem Within.current (within : Within codec disk base working)
    (supported : identity.resourceType ∈ resourceTypes) :
    ∃ number : Nat, (working.resource identity).currentVersion = .int number ∧
      Known identity number working :=
  (within.resource_sound supported).selected

/-- What the history part of a paid commit has reached. -/
structure PaidRecorded (codec : VersionsCodec Bytes) (identity : Identity)
    (stagedFile : String) (history : PaidHistory) (working : Working Bytes) : Prop where
  saved : Saved codec working
  prior : ∃ number : Nat, history.priorCurrent = number ∧ Known identity number working
  version : ∃ (number : Nat) (bytes : Bytes), history.version = number ∧
    working.files (.media stagedFile) = some bytes ∧
    Keeps identity number bytes working

variable {stagedFile currentFile : String}

section

variable (within : Within codec disk base working)
include within

theorem recordPaid_ensures (supported : identity.resourceType ∈ resourceTypes)
    (prompt stagedFile currentFile : String) {metadata : List (String × Json)}
    (extra : ExtraOnly metadata) :
    Ensures working (recordPaid codec environment identity prompt stagedFile currentFile metadata)
      (fun history final => Within codec disk base final ∧
        PaidRecorded codec identity stagedFile history final)
      (Within codec disk base) := by
  unfold recordPaid
  apply Ensures.read
  apply Ensures.seq (within.trackCurrent_ensures supported currentFile rememberedNonnegative)
  intro _ tracked ofTracked
  obtain ⟨number, isCurrent, known⟩ := ofTracked.1.current supported
  have normalized : tracked.normalizeCurrent identity = tracked := by
    unfold normalizeCurrent
    rw [isCurrent]
    exact if_pos (Int.natCast_nonneg number)
  apply Ensures.change
  rw [normalized]
  apply Ensures.read
  have isPrior : rememberedNonnegative (tracked.resource identity).currentVersion = number := by
    rw [isCurrent]
    show max (number : Int) 0 = number
    omega
  rw [isPrior]
  apply Ensures.seq (ofTracked.1.appendVersion_ensures supported stagedFile
    prompt extra rememberedNonnegative false)
  intro version appended ofAppended
  obtain ⟨appendedWithin, registers⟩ := ofAppended
  apply Ensures.bind saveVersions_ensures
  · intro final failed
    obtain ⟨steps, isFinal⟩ := failed
    rw [isFinal]
    exact appendedWithin.atStep steps
  intro _ saved isSaved
  obtain ⟨steps, isSaved⟩ := isSaved
  subst isSaved
  apply Ensures.pure
  refine ⟨appendedWithin.save.atStep steps, ?_⟩
  constructor
  · exact (files_write _ _ _ _).trans (if_pos rfl)
  · refine ⟨number, rfl, known.of_prefix ?_⟩
    exact registers.longer
  · obtain ⟨recorded, bytes, isVersion, present, keeps, _⟩ :=
      registers.numbered
    refine ⟨recorded, bytes, isVersion, ?_, keeps.carry rfl ?_⟩
    · rw [← present, ← registers.media]
      exact (files_write _ _ _ _).trans (if_neg nofun)
    · intro timestamp
      exact (files_write _ _ _ _).trans (if_neg (versionRelPath_ne_versionsFile _ _ _))

theorem rollBackHistory_within (stagedFile : String) (failure : VersionError) :
    Within codec disk base (rollBackHistory environment
      (disk.files versionsFile) stagedFile failure working).2 := by
  unfold rollBackHistory
  apply tryAll_keeps _ _ within
  · intro state count before
    exact before.atStep count
  · intro step member state next before stepped
    rcases mem_cons.mp member with isHistory | isFile
    · subst isHistory
      cases stepped
      exact before.store (.inl rfl)
    · obtain ⟨path, isPath, isStep⟩ := mem_map.mp isFile
      subst isStep
      cases stepped
      rcases mem_append.mp isPath with isCreated | isStaged
      · exact before.write (within.created path isCreated) none
      · rw [mem_singleton.mp isStaged]
        exact before.write (Free.media before.ofBase stagedFile) none

/-- The selection of a paid version: when it fails, the records are still
those it started with. -/
theorem selectPaid_ensures (supported : identity.resourceType ∈ resourceTypes)
    {bytes : Bytes} (present : working.files (.media stagedFile) = some bytes)
    (keeps : Keeps identity number bytes working) (onSelect : Bool) :
    Ensures working (selectPaid codec environment identity stagedFile currentFile number onSelect)
      (fun _ => Committed codec disk base (Selects identity currentFile))
      (fun final => Within codec disk base final ∧
        recordsOf final.data identity = recordsOf working.data identity) := by
  unfold selectPaid
  apply passStep_then
  · intro steps
    exact ⟨within.atStep steps, rfl⟩
  intro steps
  apply Ensures.bind ((within.atStep steps).backUpCurrent_ensures currentFile)
  · intro final stopped
    exact ⟨stopped.1, congrArg (recordsOf · identity) stopped.2⟩
  intro _ backed ofBacked
  obtain ⟨backedWithin, sameData, sameFiles⟩ := ofBacked
  have backedKeeps : Keeps identity number bytes backed := by
    refine keeps.carry (congrArg (Dict.get? · identity) sameData) ?_
    intro timestamp
    exact sameFiles _ nofun
  apply Ensures.bind (replaceFile_ensures _ _)
  · intro final failed
    obtain ⟨steps', isFinal⟩ := failed
    rw [isFinal]
    exact ⟨backedWithin.atStep steps', congrArg (recordsOf · identity) sameData⟩
  intro _ replaced isReplaced
  obtain ⟨moved, steps', isThere, isReplaced⟩ := isReplaced
  have isBytes : moved = bytes := by
    rw [sameFiles (.media stagedFile) nofun] at isThere
    exact Option.some.inj (isThere.symm.trans present)
  subst isBytes
  have media := Free.media backedWithin.ofBase
  have replacedWithin : Within codec disk base replaced := by
    rw [isReplaced]
    exact (backedWithin.move (media stagedFile) (media currentFile) moved).atStep steps'
  have replacedKeeps : Keeps identity number moved replaced := by
    rw [isReplaced]
    exact backedKeeps.move stagedFile currentFile moved
  apply Ensures.change
  have selected : Selects identity currentFile (replaced.select identity (.int number)) := by
    refine ⟨number, moved, Points.select replaced identity number, replacedKeeps.select _, ?_⟩
    rw [isReplaced]
    exact (files_move _ _ _ _ _).trans (if_pos rfl)
  apply ((replacedWithin.select_keeps supported replacedKeeps).close
    (Selects.steady identity currentFile) selected onSelect).weaken (fun _ _ committed => committed)
  intro final stopped
  refine ⟨stopped.1, ?_⟩
  rw [stopped.2]
  refine (recordsOf_put _ _ _ _).trans ((if_pos rfl).trans ?_)
  rw [isReplaced]
  exact congrArg (recordsOf · identity) sameData

theorem rollBackSelection_within (supported : identity.resourceType ∈ resourceTypes)
    (known : Known identity number working) (stagedFile : String) (failure : VersionError) :
    Within codec disk base (rollBackSelection codec environment identity
      stagedFile number failure working).2 := by
  unfold rollBackSelection
  apply Within.unlinkPaths
  · apply tryAll_keeps _ _ (within.select supported known)
    · intro state count before
      exact before.atStep count
    · intro step member state next before stepped
      rcases mem_append.mp member with isCurrent | isSave
      · obtain ⟨current, isState, isStep⟩ := mem_map.mp isCurrent
        subst isStep
        exact before.restoreCurrent (fun path isBackup =>
          within.backups current (mem_reverse.mp isState) path isBackup)
          stepped
      · rw [mem_singleton.mp isSave] at stepped
        cases stepped
        exact before.save
  · intro path member
    rw [mem_singleton.mp member]
    exact Free.media within.ofBase stagedFile

end

theorem Committed.unlinkMedia {file : String} (apart : file ≠ currentFile)
    (committed : Committed codec disk base (Selects identity currentFile) working) :
    Committed codec disk base (Selects identity currentFile)
      (working.write (.media file) none) := by
  constructor
  · exact committed.within.write (Free.media committed.within.ofBase file) none
  · exact (files_write _ _ _ _).trans ((if_neg nofun).trans committed.saved)
  · refine committed.reached.carry rfl ?_ ?_
    · refine (files_write _ _ _ _).trans (if_neg ?_)
      intro same
      exact apart (Path.media.inj same).symm
    · intro number timestamp
      exact (files_write _ _ _ _).trans (if_neg nofun)

/-- A paid commit that selected its version has its bytes in the canonical
file, provided it was not staged there. -/
theorem settlePaid_preserves (decoded : disk.history? codec = some base)
    (within : Within codec disk base working) (supported : identity.resourceType ∈ resourceTypes)
    (apart : stagedFile ≠ currentFile) {history : PaidHistory}
    (recorded : PaidRecorded codec identity stagedFile history working) (selected onSelect : Bool) :
    Preserves codec disk base working
      (settlePaid codec environment identity stagedFile currentFile history selected onSelect)
      (fun commit final => commit.selected = true →
        Saved codec final ∧ Selects identity currentFile final) := by
  have steady : Steady (fun state : Working Bytes => Selects identity currentFile state) :=
    Selects.steady identity currentFile
  unfold settlePaid
  split
  · apply Ensures.change
    obtain ⟨number, bytes, isVersion, present, keeps⟩ := recorded.version
    obtain ⟨prior, isPrior, known⟩ := recorded.prior
    rw [isVersion, isPrior]
    have observed := within.observed currentFile (working.hasFile (.media currentFile))
    refine Ensures.bind (show Ensures _ _ _ (Within codec disk base) from
      (selectPaid_ensures observed supported present
        (keeps.carry rfl (fun _ => rfl)) onSelect).orUndo ?_) ?_ ?_
    · intro failure state stopped
      apply rollBackSelection_within stopped.1 supported
      apply known.of_prefix
      rw [stopped.2]
    · intro final stillWithin
      exact stillWithin.advanced decoded
    intro _ final committed
    apply Ensures.change
    apply Ensures.pure
    have cleaned : Committed codec disk base (Selects identity currentFile)
        (unlinkPaths environment (.media stagedFile :: final.backups) final) := by
      refine committed.unlinkPaths steady ?_
      intro path member state before
      rcases mem_cons.mp member with isStaged | isBackup
      · rw [isStaged]
        exact before.unlinkMedia apart
      · obtain ⟨current, isState, isPath⟩ := mem_filterMap.mp isBackup
        obtain ⟨index, isTemporary⟩ := committed.within.backups current isState path isPath
        rw [isTemporary]
        exact before.unlinkTemporary steady index
    exact ⟨cleaned.within.advanced decoded, fun _ => ⟨cleaned.saved, cleaned.reached⟩⟩
  · apply Ensures.change
    apply Ensures.pure
    refine ⟨?_, nofun⟩
    apply Within.advanced _ decoded
    apply within.unlinkPaths
    intro path member
    rw [mem_singleton.mp member]
    exact Free.media within.ofBase stagedFile

theorem decideSelection_ensures (history : PaidHistory)
    (selectCurrent : SelectCurrent) (expectedCurrent : Option Int) :
    Ensures working (decideSelection history selectCurrent expectedCurrent)
      (fun _ final => final = working) (fun final => final = working) := by
  have readOnly : ReadOnly (decideSelection history
      selectCurrent expectedCurrent : Stage Bytes Bool) := by
    intro working
    have answered : (decideSelection.answer selectCurrent working).2 = working := by
      unfold decideSelection.answer
      split <;> rfl
    unfold decideSelection
    split
    · split
      · rfl
      · exact answered
    · exact answered
  constructor
  · intro value final ran
    exact readOnly.state_eq ran
  · intro failure final ran
    exact readOnly.state_eq ran

theorem commitStagedPaidVersion_preserves
    (decoded : disk.history? codec = some base) (sound : SoundHistory base) (prompt : String)
    (apart : stagedFile ≠ currentFile) (selectCurrent : SelectCurrent)
    (expectedCurrent : Option Int) (onSelect : Bool)
    {metadata : List (String × Json)} (extra : ExtraOnly metadata) :
    Preserves codec disk base disk.start
      (commitStagedPaidVersion codec environment identity prompt stagedFile
        currentFile selectCurrent expectedCurrent onSelect metadata)
      (fun commit final => commit.selected = true →
        Saved codec final ∧ Selects identity currentFile final) := by
  unfold commitStagedPaidVersion
  apply Preserves.checkResourceType decoded sound rfl
  intro supported
  apply Preserves.demand decoded sound rfl
  intro _
  apply Preserves.demand decoded sound rfl
  intro _
  apply Preserves.readVersionsFile decoded sound rfl
  intro first
  apply Preserves.loadVersions decoded sound
  intro steps opened
  apply Ensures.bind ((recordPaid_ensures opened supported prompt stagedFile
    currentFile extra).orUndo (fun failure state interrupted =>
      rollBackHistory_within interrupted stagedFile failure))
  · intro final within
    exact within.advanced decoded
  intro history state recorded
  have unlinked : ∀ (failure : VersionError) (final : Working Bytes),
      final = state → Within codec disk base
        (failure, unlinkPaths environment [.media stagedFile] final).2 := by
    intro failure final same
    rw [same]
    apply recorded.1.unlinkPaths
    intro path member
    rw [mem_singleton.mp member]
    exact Free.media sound stagedFile
  apply Ensures.bind ((decideSelection_ensures history selectCurrent
    expectedCurrent).orUndo unlinked)
  · intro final within
    exact within.advanced decoded
  intro selected final same
  subst same
  exact settlePaid_preserves decoded recorded.1 supported apart recorded.2 selected onSelect

end MatrixSpooll.Version
