import MatrixSpooll.Version.Operations

/-!
# Going back, and adding a record

Rejecting and restoring put the canonical file on the snapshot of a recorded
version; rejecting the first version removes it.  `add_version` appends and
selects a record without touching any canonical file.
-/

namespace MatrixSpooll.Version

open Library Attempt Working

variable {Bytes : Type} {codec : VersionsCodec Bytes}
  {environment : Environment Bytes} {disk : Disk Bytes}
  {base : VersionsData} {identity : Identity}
  {working : Working Bytes} {resource : ResourceData}
  {record : VersionRecord}

section

variable (within : Within codec disk base working)
  (supported : identity.resourceType ∈ resourceTypes)
  (stored : working.data.get? identity = some resource)

include within stored in
theorem Within.findVersion {version : Int}
    (found : findVersion resource.versions version = some record) :
    ∃ number : Nat, version = number ∧ 0 < number ∧
      record ∈ resource.versions ∧ Records identity record number := by
  have member := List.mem_of_find?_eq_some found
  have equal := List.find?_some found
  obtain ⟨number, positive, carries⟩ :=
    (within.grown.sound identity resource stored).recorded record member
  rw [carries.get_version] at equal
  have same : some (number : Int) = some version := of_decide_eq_true equal
  exact ⟨number, (Option.some.inj same).symm, positive, member, carries⟩

include within supported stored in
/-- The canonical file becomes a copy of the record's snapshot, and the pointer
is put on the record. -/
theorem Within.select_copied (member : record ∈ resource.versions)
    {number : Nat} (carries : Records identity record number) {path : Path}
    (named : recordFile record = some path) {bytes : Bytes}
    (held : working.files path = some bytes) (currentFile : String) (steps : Nat) :
    Within codec disk base (((working.write (.media currentFile)
        (some bytes)).atStep steps).select identity (.int number)) ∧
      Selects identity currentFile (((working.write (.media currentFile)
        (some bytes)).atStep steps).select identity (.int number)) := by
  obtain ⟨timestamp, isNamed⟩ := carries.recordFile_eq
  rw [isNamed] at named
  cases named
  have stillHeld : (working.write (.media currentFile) (some bytes)).files
      (.managed (versionRelPath identity number timestamp)) = some bytes := by
    rw [files_write, if_neg nofun]
    exact held
  have keeps : Keeps identity number bytes
      ((working.write (.media currentFile) (some bytes)).atStep steps) :=
    ⟨resource, record, timestamp, stored, member, carries, isNamed, stillHeld⟩
  have media := Free.media within.ofBase currentFile
  exact ⟨((within.write media _).atStep steps).select_keeps supported keeps,
    number, bytes, Points.select _ identity number, keeps.select _,
    (files_write _ _ _ _).trans (if_pos rfl)⟩

theorem takeRecordFile_ensures (record : VersionRecord) : Ensures working (takeRecordFile record)
      (fun path final => recordFile record = some path ∧ final = working)
      (fun final => final = working) := by
  unfold takeRecordFile
  constructor
  · intro path final ran
    split at ran <;> cases ran
    next found => exact ⟨found, rfl⟩
  · intro failure final ran
    split at ran <;> cases ran
    rfl

/-! ## Rejecting the current version -/

/-- The canonical file holds the selected version, or nothing is selected and
there is no canonical file. -/
def Retreats (identity : Identity) (currentFile : String) (working : Working Bytes) : Prop :=
  (Points identity 0 working ∧ working.files (.media currentFile) = none) ∨
    Selects identity currentFile working

theorem Retreats.steady (identity : Identity) (currentFile : String) :
    Steady (fun working : Working Bytes => Retreats identity currentFile working) := by
  intro start final retreats sameData sameFiles
  rcases retreats with nothing | selects
  · obtain ⟨points, missing⟩ := nothing
    refine .inl ⟨?_, ?_⟩
    · obtain ⟨resource, found, isCurrent⟩ := points
      rw [← sameData] at found
      exact ⟨resource, found, isCurrent⟩
    · rw [sameFiles (.media currentFile) nofun nofun]
      exact missing
  · exact .inr (Selects.steady identity currentFile start final selects sameData sameFiles)

include within supported stored

theorem goBack_ensures (target : Int) (currentFile : String) : Ensures working
      (goBack environment identity (findVersion resource.versions target) currentFile)
      (fun _ final => Within codec disk base final ∧ Retreats identity currentFile final)
      (Within codec disk base) := by
  have media := Free.media within.ofBase currentFile
  cases found : findVersion resource.versions target with
  | none =>
    apply Ensures.change_last
    refine ⟨(within.write media none).select supported (.inl rfl),
      .inl ⟨Points.select _ identity 0, ?_⟩⟩
    exact (files_write _ _ _ _).trans (if_pos rfl)
  | some record =>
    obtain ⟨number, _, _, member, carries⟩ := within.findVersion stored found
    apply Ensures.bind (takeRecordFile_ensures record)
    · intro final same
      rw [same]
      exact within
    intro path state taken
    obtain ⟨named, same⟩ := taken
    subst same
    refine Ensures.demand (fun _ => within) (fun _ => ?_)
    have notTemporary : ∀ index, path ≠ .temporary index := by
      obtain ⟨timestamp, isNamed⟩ := carries.recordFile_eq
      rw [isNamed] at named
      cases named
      exact fun index same => nomatch same
    apply Ensures.bind (replaceByCopy_ensures notTemporary currentFile)
    · intro final beside
      exact within.beside beside
    intro _ copied isCopied
    obtain ⟨middle, bytes, steps, beside, held, isCopied⟩ := isCopied
    apply Ensures.change_last
    rw [carries.get_version, isCopied]
    rw [← beside.data] at stored
    rw [← beside.files path (fun index same => absurd same (notTemporary index))] at held
    obtain ⟨selectedWithin, selects⟩ := (within.beside beside).select_copied
      supported stored member carries named held currentFile steps
    exact ⟨selectedWithin, .inr selects⟩

theorem rejectCurrent_ensures (target : Int) (currentFile : String) (onReject : Bool) :
    Ensures working (rejectCurrent codec environment identity
        (findVersion resource.versions target) currentFile onReject)
      (fun _ => Committed codec disk base (Retreats identity currentFile))
      (Within codec disk base) := by
  unfold rejectCurrent
  apply passStep_then within.atStep
  intro steps
  apply Ensures.bind ((within.atStep steps).backUpCurrent_ensures currentFile)
    (fun _ stopped => stopped.1)
  intro _ backed ofBacked
  obtain ⟨backedWithin, sameData, _⟩ := ofBacked
  have stillStored : backed.data.get? identity = some resource := by
    rw [sameData]
    exact stored
  apply Ensures.seq (goBack_ensures backedWithin supported stillStored target currentFile)
  intro _ final ended
  apply (ended.1.close (Retreats.steady identity currentFile) ended.2
    onReject).weaken (fun _ _ committed => committed)
  intro state stopped
  exact stopped.1

theorem restoreCopy_ensures (member : record ∈ resource.versions)
    {number : Nat} (carries : Records identity record number) {path : Path}
    (named : recordFile record = some path) (currentFile : String) (onRestore : Bool) :
    Ensures working (restoreCopy codec environment identity path number currentFile onRestore)
      (fun _ => Committed codec disk base (Selects identity currentFile))
      (Within codec disk base) := by
  unfold restoreCopy
  apply passStep_then within.atStep
  intro steps
  apply Ensures.bind ((within.atStep steps).backUpCurrent_ensures currentFile)
    (fun _ stopped => stopped.1)
  intro _ backed ofBacked
  obtain ⟨backedWithin, sameData, _⟩ := ofBacked
  have stillStored : backed.data.get? identity = some resource := by
    rw [sameData]
    exact stored
  apply Ensures.bind (copyFile_ensures path (.media currentFile))
  · intro final failed
    obtain ⟨content, steps', isFinal⟩ := failed
    rw [isFinal]
    exact (backedWithin.write (Free.media within.ofBase currentFile) content).atStep steps'
  intro _ copied isCopied
  obtain ⟨bytes, steps', held, isCopied⟩ := isCopied
  subst isCopied
  apply Ensures.change
  obtain ⟨selectedWithin, selects⟩ := backedWithin.select_copied supported
    stillStored member carries named held currentFile steps'
  apply (selectedWithin.close (Selects.steady identity currentFile) selects
    onRestore).weaken (fun _ _ committed => committed)
  intro state stopped
  exact stopped.1

end

section

variable (decoded : disk.history? codec = some base) (sound : SoundHistory base)
include decoded sound

theorem rejectSelected_preserves (supported : identity.resourceType ∈ resourceTypes)
    (stored : base.get? identity = some resource) (steps : Nat)
    (rejectedRecord : VersionRecord) (rejectedVersion : Int)
    (restoreVersion : Option Int) (currentFile : String) (onReject : Bool) :
    Preserves codec disk base ((disk.start.withData base).atStep steps)
      (rejectSelected codec environment identity resource rejectedRecord
        rejectedVersion restoreVersion currentFile onReject)
      (fun rejected final => rejected = true →
        Saved codec final ∧ Retreats identity currentFile final) := by
  unfold rejectSelected
  apply Preserves.demand decoded sound rfl
  intro _
  apply Preserves.demand decoded sound rfl
  intro _
  apply Preserves.readVersionsFile decoded sound rfl
  intro later
  apply Ensures.change
  have opened : Within codec disk base (((disk.start.withData base).atStep steps).atStep later) :=
    Within.opened sound later
  apply Preserves.transaction decoded (Retreats.steady identity currentFile)
    (rejectCurrent_ensures (opened.observed currentFile _) supported stored _ currentFile onReject)
  intro _ final committed
  exact Ensures.pure ⟨committed.within.advanced decoded, fun _ =>
    ⟨committed.saved, committed.reached⟩⟩

theorem rejectCurrentVersion_preserves (rejectedVersion : Int)
    (restoreVersion : Option Int) (currentFile : String) (onReject : Bool) :
    Preserves codec disk base disk.start
      (rejectCurrentVersion codec environment identity rejectedVersion
        restoreVersion currentFile onReject)
      (fun rejected final => rejected = true →
        Saved codec final ∧ Retreats identity currentFile final) := by
  unfold rejectCurrentVersion
  apply Preserves.checkResourceType decoded sound rfl
  intro supported
  apply Preserves.loadVersions decoded sound
  intro steps _
  apply Ensures.read
  have refused : Preserves codec disk base ((disk.start.withData base).atStep steps) (pure false)
      (fun rejected final => rejected = true →
        Saved codec final ∧ Retreats identity currentFile final) :=
    Ensures.pure ⟨Advanced.unchanged decoded sound rfl, nofun⟩
  unfold rejectCurrentVersion.answer
  split
  · exact refused
  · next resource stored =>
      split
      · split
        · exact refused
        · exact rejectSelected_preserves decoded sound supported stored steps
            _ rejectedVersion restoreVersion currentFile onReject
      · exact refused

/-! ## Restoring a version -/

theorem restoreVersion_preserves (version : Int) (currentFile : String) (onRestore : Bool) :
    Preserves codec disk base disk.start
      (restoreVersion codec environment identity version currentFile onRestore)
      (fun _ final => Saved codec final ∧ Selects identity currentFile final) := by
  unfold restoreVersion
  apply Preserves.checkResourceType decoded sound rfl
  intro supported
  apply Preserves.loadVersions decoded sound
  intro steps opened
  apply Ensures.read
  have refused : ∀ failure : VersionError, Preserves codec disk base
      ((disk.start.withData base).atStep steps)
      (fun working => (.error failure, working) : Stage Bytes Json)
      (fun _ final => Saved codec final ∧ Selects identity currentFile final) := by
    intro failure
    constructor
    · intro value final ran
      cases ran
    · intro stated final ran
      cases ran
      exact Advanced.unchanged decoded sound rfl
  unfold restoreVersion.answer
  split
  · exact refused _
  · next resource stored =>
      split
      · exact refused _
      · next record found =>
          obtain ⟨number, isVersion, _, member, carries⟩ := opened.findVersion stored found
          subst isVersion
          unfold restoreRecord
          apply Ensures.bind (takeRecordFile_ensures record)
          · intro final same
            rw [same]
            exact Advanced.unchanged decoded sound rfl
          intro path state taken
          obtain ⟨named, same⟩ := taken
          subst same
          apply Preserves.demand decoded sound rfl
          intro _
          apply Preserves.readVersionsFile decoded sound rfl
          intro later
          apply Ensures.change
          have observed := (opened.atStep later).observed currentFile
            (disk.start.hasFile (.media currentFile))
          apply Preserves.transaction decoded (Selects.steady identity currentFile)
            (restoreCopy_ensures observed supported stored member carries
              named currentFile onRestore)
          intro _ final committed
          exact Ensures.pure ⟨committed.within.advanced decoded, committed.saved, committed.reached⟩

end

/-! ## Adding a record -/

theorem copySource_ensures {start : Working Bytes} (sourceFile : Option String) (file : String) :
    Ensures start (addVersion.copySource environment sourceFile file)
      (fun _ final => (∃ steps, final = start.atStep steps ∧ ∀ source, sourceFile = some source →
            start.files (.media source) = none) ∨
        ∃ source bytes steps, sourceFile = some source ∧ start.files (.media source) = some bytes ∧
          final = (start.write (projectFile file) (some bytes)).atStep steps)
      (fun final => ∃ content steps,
        final = (start.write (projectFile file) content).atStep steps) := by
  have untouched : ∀ steps, ∃ content steps', start.atStep steps =
      (start.write (projectFile file) content).atStep steps' := by
    intro steps
    refine ⟨start.files (projectFile file), steps, ?_⟩
    rw [write_self]
  unfold addVersion.copySource
  split
  · refine Ensures.pure (.inl ⟨start.steps, rfl, ?_⟩)
    intro source never
    cases never
  · next source =>
      apply Ensures.branch
      · intro present
        apply passStep_then
        · intro steps
          exact untouched steps
        intro steps
        apply (copyFile_ensures _ _).weaken
        · intro _ final copied
          obtain ⟨bytes, steps', held, isFinal⟩ := copied
          exact .inr ⟨source, bytes, steps', rfl, held, isFinal⟩
        · intro final failed
          exact failed
      · intro missing
        refine Ensures.pure (.inl ⟨start.steps, rfl, ?_⟩)
        intro other isSource
        cases isSource
        apply Option.isNone_iff_eq_none.mp
        exact Option.isSome_eq_false_iff.mp missing

/-- What `add_version` has reached: the resource points to the new version,
whose snapshot is a copy of the source if there was one, and no media file has
changed. -/
def Added (identity : Identity) (sourceFile : Option String)
    (disk : Disk Bytes) (version : Int) (working : Working Bytes) : Prop :=
  ∃ number : Nat, version = number ∧ Points identity number working ∧
    (∀ file, working.files (.media file) = disk.files (.media file)) ∧
    ∀ source bytes, sourceFile = some source → disk.files (.media source) = some bytes →
      Keeps identity number bytes working

theorem addVersion_preserves (decoded : disk.history? codec = some base)
    (sound : SoundHistory base) (prompt : String) (sourceFile : Option String)
    {metadata : List (String × Json)} (extra : ExtraOnly metadata) :
    Preserves codec disk base disk.start
      (addVersion codec environment identity prompt sourceFile metadata)
      (fun version final => Saved codec final ∧ Added identity sourceFile disk version final) := by
  unfold addVersion
  apply Preserves.checkResourceType decoded sound rfl
  intro supported
  apply Preserves.loadVersions decoded sound
  intro steps opened
  obtain ⟨number, positive, isNext, above⟩ := (opened.resource_sound supported).nextVersion_eq
  apply Ensures.bind (takeNumber_ensures identity)
  · intro final same
    rw [same]
    exact Advanced.unchanged decoded sound rfl
  intro version numbered taken
  obtain ⟨same, isTaken⟩ := taken
  subst same
  rw [isNext] at isTaken
  cases isTaken
  apply Ensures.read
  have free : ∀ timestamp, Free base (projectFile (versionRelPath identity number timestamp)) := by
    intro timestamp
    rw [projectFile_versionRelPath]
    exact opened.free_next supported above timestamp
  apply Ensures.bind (copySource_ensures sourceFile _)
  · intro final failed
    obtain ⟨content, steps', isFinal⟩ := failed
    rw [isFinal]
    exact Within.advanced ((opened.write (free _) content).atStep steps') decoded
  intro _ copied isCopied
  apply Ensures.change
  obtain ⟨copiedWithin, sameData, sameMedia, held⟩ :
      Within codec disk base copied ∧ copied.data = base ∧
      (∀ file, copied.files (.media file) = disk.files (.media file)) ∧
      ∀ source bytes, sourceFile = some source → disk.files (.media source) = some bytes →
        copied.files (.managed (versionRelPath identity number
          (environment.timestamp steps))) = some bytes := by
    rcases isCopied with without | withSource
    · obtain ⟨steps', isCopied, absent⟩ := without
      subst isCopied
      refine ⟨opened.atStep steps', rfl, fun _ => rfl, ?_⟩
      intro source bytes isSource present
      have missing := absent source isSource
      rw [files_atStep] at missing
      exact absurd (missing.symm.trans present) (by simp)
    · obtain ⟨source, bytes, steps', isSource, present, isCopied⟩ :=
        withSource
      subst isCopied
      refine ⟨(opened.write (free _) (some bytes)).atStep steps', rfl, ?_, ?_⟩
      · intro file
        rw [projectFile_versionRelPath]
        exact (files_write _ _ _ _).trans (if_neg nofun)
      · intro other otherBytes isOther otherPresent
        cases isSource.symm.trans isOther
        cases present.symm.trans otherPresent
        rw [projectFile_versionRelPath]
        exact (files_write _ _ _ _).trans (if_pos rfl)
  have sameResource : copied.resource identity =
      ((disk.start.withData base).atStep steps).resource identity := by
    unfold resource
    rw [sameData]
    rfl
  have appended := (opened.resource_sound supported).append positive above
    (environment.timestamp steps) prompt
    (environment.isoTimestamp copied.steps) extra rememberedVersion true
  rw [← sameResource] at appended
  have stillWithin := copiedWithin.putResource appended (List.prefix_append _ _)
  apply Ensures.bind saveVersions_ensures
  · intro final failed
    obtain ⟨steps', isFinal⟩ := failed
    rw [isFinal]
    exact (stillWithin.atStep steps').advanced decoded
  intro _ saved isSaved
  obtain ⟨steps', isSaved⟩ := isSaved
  subst isSaved
  apply Ensures.pure
  refine ⟨(stillWithin.save.atStep steps').advanced decoded,
    (files_write _ _ _ _).trans (if_pos rfl), number, rfl, ?_, ?_, ?_⟩
  · exact Points.append copied identity number _ prompt _ metadata rememberedVersion
  · intro file
    exact ((files_write _ _ _ _).trans (if_neg nofun)).trans (sameMedia file)
  · intro source bytes isSource present
    have keeps := Keeps.append copied identity number (environment.timestamp steps) prompt
      (environment.isoTimestamp copied.steps) extra rememberedVersion true
      (held source bytes isSource present)
    refine keeps.carry rfl ?_
    intro timestamp
    exact (files_write _ _ _ _).trans (if_neg (versionRelPath_ne_versionsFile _ _ _))

end MatrixSpooll.Version
