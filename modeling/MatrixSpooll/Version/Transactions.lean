import MatrixSpooll.Version.Stages

/-!
# Version transactions

Inside a call the disk is `Within` the history it started from: the recorded
snapshots are untouched, `versions.json` holds the old document or one that
has grown out of it, and so does the working copy.  Every step of every
operation keeps this, the steps of a rollback included, whether they work or
not; so a call that raises leaves a sound history as well.
-/

namespace MatrixSpooll.Version

open Library Attempt List Working

variable {Bytes : Type} {codec : VersionsCodec Bytes}
  {environment : Environment Bytes} {disk : Disk Bytes}
  {base data : VersionsData} {identity : Identity}

/-! ## Histories that grow -/

/-- A sound history with every record of `base` in its place. -/
structure Grown (base data : VersionsData) : Prop where
  sound : SoundHistory data
  extended : Extends base data

theorem recordsOf_put (data : VersionsData) (identity other : Identity) (resource : ResourceData) :
    recordsOf (data.put identity resource) other =
      if other = identity then resource.versions
      else recordsOf data other := by
  unfold recordsOf
  rw [Dict.get?_put]
  split <;> rfl

theorem Grown.refl (sound : SoundHistory base) : Grown base base :=
  { sound := sound
    extended := fun _ => prefix_rfl }

theorem Grown.put (grown : Grown base data) {resource : ResourceData}
    (sound : resource.Sound identity) (longer : recordsOf data identity <+: resource.versions) :
    Grown base (data.put identity resource) := by
  constructor
  · exact grown.sound.put sound
  · intro other
    rw [recordsOf_put]
    split
    · next same =>
        subst same
        exact (grown.extended other).trans longer
    · exact grown.extended other

variable {number : Nat}

theorem Grown.above (grown : Grown base data)
    (above : ∀ other ∈ (recordsOf data identity).filterMap versionNumber,
      other < (number : Int)) {resource : ResourceData}
    (found : base.get? identity = some resource) {other : Int}
    (member : other ∈ resource.versions.filterMap versionNumber) :
    other < (number : Int) := by
  apply above
  have longer := grown.extended identity
  have isBase : recordsOf base identity = resource.versions := by
    unfold recordsOf
    rw [found]
    rfl
  rw [isBase] at longer
  exact (longer.sublist.filterMap versionNumber).subset member

/-! ## The invariant of a running call -/

/-- A file that holds neither the history nor a recorded snapshot. -/
structure Free (base : VersionsData) (path : Path) : Prop where
  notHistory : path ≠ versionsFile
  notRegistered : ¬ Registered base path

theorem Free.of_not_managed (sound : SoundHistory base) {path : Path}
    (outside : ∀ relative, path ≠ .managed relative) : Free base path := by
  constructor
  · exact outside _
  · intro registered
    obtain ⟨_, _, _, _, _, _, _, isManaged⟩ := sound.registered registered
    exact outside _ isManaged

theorem Free.media (sound : SoundHistory base) (file : String) : Free base (.media file) :=
  Free.of_not_managed sound nofun

theorem Free.temporary (sound : SoundHistory base) (index : Nat) : Free base (.temporary index) :=
  Free.of_not_managed sound nofun

structure Within (codec : VersionsCodec Bytes) (disk : Disk Bytes)
    (base : VersionsData) (working : Working Bytes) : Prop where
  ofBase : SoundHistory base
  kept : ∀ path, Registered base path → working.files path = disk.files path
  stored : working.files versionsFile = disk.files versionsFile ∨ ∃ data, Grown base data ∧
      working.files versionsFile = some (codec.dump data)
  grown : Grown base working.data
  created : ∀ path ∈ working.createdSnapshots, Free base path
  backups : ∀ state ∈ working.currentStates, ∀ path,
    state.backup = some path → ∃ index, path = .temporary index

namespace Within

variable {working final : Working Bytes}

theorem opened (sound : SoundHistory base) (steps : Nat) :
    Within codec disk base ((disk.start.withData base).atStep steps) :=
  { ofBase := sound
    kept := fun _ _ => rfl
    stored := .inl rfl
    grown := Grown.refl sound
    created := nofun
    backups := nofun }

section

variable (within : Within codec disk base working)
include within

theorem atStep (steps : Nat) : Within codec disk base (working.atStep steps) :=
  { within with }

theorem kept_write {path other : Path} (unregistered : ¬ Registered base path)
    (content : Option Bytes) (registered : Registered base other) :
    (working.write path content).files other = disk.files other := by
  have different : other ≠ path := by
    intro same
    subst same
    exact unregistered registered
  rw [files_write, if_neg different]
  exact within.kept other registered

theorem write {path : Path} (free : Free base path) (content : Option Bytes) :
    Within codec disk base (working.write path content) := by
  refine { within with kept := ?_, stored := ?_ }
  · intro other registered
    exact within.kept_write free.notRegistered content registered
  · rw [files_write, if_neg free.notHistory.symm]
    exact within.stored

theorem move {source target : Path} (freeSource : Free base source)
    (freeTarget : Free base target) (bytes : Bytes) :
    Within codec disk base (working.move source target bytes) :=
  (within.write freeSource none).write freeTarget (some bytes)

/-- The document on disk may become any grown history or the old bytes. -/
theorem store {content : Option Bytes} (known : content = disk.files versionsFile ∨
      ∃ data, Grown base data ∧ content = some (codec.dump data)) :
    Within codec disk base (working.write versionsFile content) := by
  refine { within with kept := ?_, stored := ?_ }
  · intro other registered
    refine within.kept_write ?_ content registered
    intro isHistory
    obtain ⟨_, _, _, _, _, _, _, same⟩ := within.ofBase.registered isHistory
    exact versionRelPath_ne_versionsFile _ _ _ same.symm
  · rw [files_write, if_pos rfl]
    exact known

theorem save : Within codec disk base
      (working.write versionsFile (some (codec.dump working.data))) :=
  within.store (.inr ⟨working.data, within.grown, rfl⟩)

theorem beside (same : Beside working final) : Within codec disk base final := by
  constructor
  · exact within.ofBase
  · intro path registered
    have notTemporary : ∀ index, path = .temporary index → index < working.temporaries := by
      intro index isTemporary
      subst isTemporary
      exact absurd registered (Free.temporary within.ofBase index).notRegistered
    rw [same.files path notTemporary]
    exact within.kept path registered
  · rw [same.files versionsFile nofun]
    exact within.stored
  · rw [same.data]
    exact within.grown
  · rw [same.createdSnapshots]
    exact within.created
  · rw [same.currentStates]
    exact within.backups

theorem resource_sound (supported : identity.resourceType ∈ resourceTypes) :
    (working.resource identity).Sound identity := by
  unfold resource
  cases found : working.data.get? identity with
  | none => exact ResourceData.Sound.fresh supported
  | some resource => exact within.grown.sound identity resource found

theorem putResource {resource : ResourceData} (sound : resource.Sound identity)
    (longer : (working.resource identity).versions <+: resource.versions) :
    Within codec disk base (working.putResource identity resource) :=
  { within with grown := within.grown.put sound longer }

theorem noteSnapshot {path : Path} (free : Free base path) :
    Within codec disk base (working.noteSnapshot path) := by
  refine { within with created := ?_ }
  intro other member
  rcases mem_append.mp member with older | isNew
  · exact within.created other older
  · rw [mem_singleton.mp isNew]
    exact free

theorem free_next (supported : identity.resourceType ∈ resourceTypes)
    (above : ∀ other ∈ (working.resource identity).versions.filterMap
      versionNumber, other < (number : Int)) (timestamp : Timestamp) :
    Free base (.managed (versionRelPath identity number timestamp)) := by
  constructor
  · exact versionRelPath_ne_versionsFile identity number timestamp
  · -- a snapshot of this number would have been given one below it
    intro registered
    obtain ⟨owner, taken, since, resource, found, ownerSupported, member, samePath⟩ :=
      within.ofBase.registered registered
    obtain ⟨sameOwner, sameText⟩ := versionRelPath_injective supported ownerSupported
      (Path.managed.inj samePath)
    subst sameOwner
    have sameNumber : number = taken := toString_nat_injective sameText
    have below := within.grown.above above found member
    omega

theorem unappended (supported : identity.resourceType ∈ resourceTypes)
    (stopped : Unappended identity working final) :
    Within codec disk base final := by
  obtain ⟨steps, same | written⟩ := stopped
  · rw [same]
    exact within.atStep steps
  · obtain ⟨version, timestamp, content, taken, isFinal⟩ := written
    obtain ⟨number, _, isNext, above⟩ := (within.resource_sound supported).nextVersion_eq
    rw [isNext] at taken
    cases taken
    rw [isFinal, projectFile_versionRelPath]
    exact (within.write (within.free_next supported above timestamp) content).atStep steps

end

end Within

/-! ## Selected versions -/

/-- The snapshot of this version holds these bytes. -/
def Keeps (identity : Identity) (number : Nat) (bytes : Bytes) (working : Working Bytes) : Prop :=
  ∃ resource record timestamp, working.data.get? identity = some resource ∧
    record ∈ resource.versions ∧ Records identity record number ∧
    recordFile record = some (.managed (versionRelPath identity number timestamp)) ∧
    working.files (.managed (versionRelPath identity number timestamp)) = some bytes

/-- The resource points to this version. -/
def Points (identity : Identity) (number : Nat) (working : Working Bytes) : Prop :=
  ∃ resource, working.data.get? identity = some resource ∧ resource.currentVersion = .int number

/-- The canonical file holds the bytes of the selected version. -/
def Selects (identity : Identity) (currentFile : String) (working : Working Bytes) : Prop :=
  ∃ number bytes, Points identity number working ∧ Keeps identity number bytes working ∧
    working.files (.media currentFile) = some bytes

variable {start final : Working Bytes} {bytes : Bytes}

theorem Keeps.carry (keeps : Keeps identity number bytes start)
    (sameData : final.data.get? identity = start.data.get? identity)
    (sameSnapshots : ∀ timestamp, final.files
        (.managed (versionRelPath identity number timestamp)) =
      start.files (.managed (versionRelPath identity number timestamp))) :
    Keeps identity number bytes final := by
  obtain ⟨resource, record, timestamp, found, member, carries, named, holds⟩ := keeps
  rw [← sameData] at found
  rw [← sameSnapshots] at holds
  exact ⟨resource, record, timestamp, found, member, carries, named, holds⟩

variable {working : Working Bytes}

theorem Keeps.select (keeps : Keeps identity number bytes working) (version : Json) :
    Keeps identity number bytes (working.select identity version) := by
  obtain ⟨resource, record, timestamp, found, member, carries, named, holds⟩ := keeps
  refine ⟨_, record, timestamp, get?_putResource _ _ _, ?_, carries, named, holds⟩
  unfold Working.resource
  rw [found]
  exact member

theorem Points.select (working : Working Bytes) (identity : Identity) (number : Nat) :
    Points identity number (working.select identity (.int number)) :=
  ⟨_, get?_putResource _ _ _, rfl⟩

section

variable (within : Within codec disk base working)
  (supported : identity.resourceType ∈ resourceTypes)
include within supported

theorem Within.select (known : number = 0 ∨ ∃ record ∈ (working.resource identity).versions,
      Records identity record number) :
    Within codec disk base (working.select identity (.int number)) :=
  within.putResource ((within.resource_sound supported).select known) prefix_rfl

theorem Within.select_keeps (keeps : Keeps identity number bytes working) :
    Within codec disk base (working.select identity (.int number)) := by
  obtain ⟨resource, record, timestamp, found, member, carries, _, _⟩ := keeps
  apply within.select supported
  right
  unfold Working.resource
  rw [found]
  exact ⟨record, member, carries⟩

end

/-- What appending a version does to a running call. -/
structure Registers (identity : Identity) (source : String) (selects : Bool)
    (start : Working Bytes) (version : Int) (final : Working Bytes) :
    Prop where
  numbered : ∃ (number : Nat) (bytes : Bytes), version = number ∧
    start.files (.media source) = some bytes ∧
    Keeps identity number bytes final ∧
    (selects = true → Points identity number final)
  longer : recordsOf start.data identity <+: recordsOf final.data identity
  media : ∀ file, final.files (.media file) = start.files (.media file)
  otherData : ∀ other, other ≠ identity → final.data.get? other = start.data.get? other
  otherSnapshots : ∀ other number timestamp, other ≠ identity → other.resourceType ∈ resourceTypes →
    final.files (.managed (versionRelPath other number timestamp)) =
      start.files (.managed (versionRelPath other number timestamp))

section

variable (working : Working Bytes) (identity : Identity) (number : Nat)

theorem Keeps.append (timestamp : Timestamp) (prompt createdAt : String)
    {metadata : List (String × Json)} (extra : ExtraOnly metadata)
    (remember : Json → Int) (selects : Bool) (held : working.files
      (.managed (versionRelPath identity number timestamp)) = some bytes) :
    Keeps identity number bytes (working.putResource identity
      ((working.resource identity).append number
        (versionRelPath identity number timestamp) prompt createdAt metadata
        remember selects)) := by
  have carries := records_newRecord identity number timestamp prompt
    createdAt extra (remember (working.resource identity).currentVersion)
  refine ⟨_, _, timestamp, get?_putResource _ _ _,
    mem_append_right _ mem_cons_self, carries, ?_, held⟩
  unfold recordFile newRecord Json.get
  rw [Json.lookup_put, if_neg (by decide), lookup_foldl_put
    (fun entry member => (extra entry member).2),
    ← projectFile_versionRelPath]
  rfl

theorem Points.append (file prompt createdAt : String)
    (metadata : List (String × Json)) (remember : Json → Int) :
    Points identity number (working.putResource identity
      ((working.resource identity).append number file prompt createdAt metadata remember true)) :=
  ⟨_, get?_putResource _ _ _, rfl⟩

end

theorem Within.appended (within : Within codec disk base start)
    (supported : identity.resourceType ∈ resourceTypes) {source prompt : String}
    {metadata : List (String × Json)} (extra : ExtraOnly metadata)
    {remember : Json → Int} {selects : Bool} {version : Int}
    (appended : Appended identity source prompt metadata remember selects start version final) :
    Within codec disk base final ∧ Registers identity source selects start version final := by
  have sound := within.resource_sound supported
  obtain ⟨number, positive, isNext, above⟩ := sound.nextVersion_eq
  obtain ⟨bytes, timestamp, createdAt, steps, present, isFinal⟩ := appended.byCopy
  have isNumber : version = number := by
    have taken := appended.ofNumber
    rw [isNext] at taken
    cases taken
    rfl
  subst isNumber
  have free := within.free_next supported above timestamp
  have confined := appended.confined
  rw [projectFile_versionRelPath] at isFinal
  subst isFinal
  constructor
  · apply Within.atStep
    apply Within.putResource ((within.write free (some bytes)).noteSnapshot
      free) (sound.append positive above timestamp prompt createdAt extra remember selects)
    exact prefix_append _ _
  constructor
  · refine ⟨number, bytes, rfl, present, ?_, ?_⟩
    · apply Keeps.append _ identity number timestamp prompt createdAt extra
      exact (files_write _ _ _ _).trans (if_pos rfl)
    · intro isSelected
      subst isSelected
      exact Points.append _ identity number _ prompt createdAt metadata remember
  · show _ <+: recordsOf (start.data.put identity _) identity
    rw [recordsOf_put, if_pos rfl]
    exact prefix_append _ _
  · intro file
    exact (files_write _ _ _ _).trans (if_neg nofun)
  · exact confined.data
  · intro other otherNumber otherTime different
    exact confined.snapshots other otherNumber otherTime different supported

/-! ## Steps that keep the invariant -/

namespace Within

variable {working : Working Bytes}

section

variable (within : Within codec disk base working)
include within

theorem withStates {states : List CurrentState}
    (temporary : ∀ state ∈ states, ∀ path, state.backup = some path →
      ∃ index, path = .temporary index) :
    Within codec disk base { working with currentStates := states } :=
  { within with backups := temporary }

theorem remember {state : CurrentState} (temporary : ∀ path, state.backup = some path →
      ∃ index, path = .temporary index) :
    Within codec disk base (working.remember state) := by
  apply within.withStates
  intro other member path isBackup
  rcases mem_append.mp member with older | isNew
  · exact within.backups other older path isBackup
  · rw [mem_singleton.mp isNew] at isBackup
    exact temporary path isBackup

theorem withResult (result : List (Identity × Int)) :
    Within codec disk base { working with result := result } :=
  { within with }

theorem observed (currentFile : String) (existed : Bool) : Within codec disk base
      { working with currentStates := [⟨currentFile, existed, none⟩] } := by
  apply within.withStates
  intro state member path isBackup
  rw [mem_singleton.mp member] at isBackup
  cases isBackup

theorem backUpCurrent_ensures (currentFile : String) :
    Ensures working (backUpCurrent environment currentFile)
      (fun _ final => Within codec disk base final ∧ final.data = working.data ∧
        ∀ path, (∀ index, path ≠ .temporary index) → final.files path = working.files path)
      (fun final => Within codec disk base final ∧ final.data = working.data) := by
  apply (Version.backUpCurrent_ensures currentFile).weaken
  · intro _ final backedUp
    rcases backedUp with same | made
    · rw [same]
      exact ⟨within, rfl, fun _ _ => rfl⟩
    · obtain ⟨middle, index, beside, isFinal⟩ := made
      rw [isFinal]
      refine ⟨(within.beside beside).withStates ?_, beside.data, ?_⟩
      · intro state member path isBackup
        rw [mem_singleton.mp member] at isBackup
        cases isBackup
        exact ⟨index, rfl⟩
      · intro path notTemporary
        exact beside.files path (fun index same => absurd same (notTemporary index))
  · intro final beside
    exact ⟨within.beside beside, beside.data⟩

theorem trackCurrent_ensures (supported : identity.resourceType ∈ resourceTypes)
    (currentFile : String) (remember : Json → Int) :
    Ensures working (trackCurrent environment identity currentFile remember)
      (fun _ final => Within codec disk base final ∧
        (final = working ∨ ∃ version, Registers identity currentFile true working version final))
      (Within codec disk base) := by
  apply (Version.trackCurrent_ensures identity currentFile remember).weaken
  · intro _ final tracked
    rcases tracked with same | appended
    · rw [same]
      exact ⟨within, .inl rfl⟩
    · obtain ⟨version, appended⟩ := appended
      have noMetadata : ExtraOnly [] := by
        intro entry member
        cases member
      obtain ⟨still, registers⟩ := within.appended supported noMetadata appended
      exact ⟨still, .inr ⟨version, registers⟩⟩
  · intro final stopped
    exact within.unappended supported stopped

theorem appendVersion_ensures
    (supported : identity.resourceType ∈ resourceTypes) (source prompt : String)
    {metadata : List (String × Json)} (extra : ExtraOnly metadata)
    (remember : Json → Int) (selects : Bool) :
    Ensures working (appendVersion environment identity source prompt metadata remember selects)
      (fun version final => Within codec disk base final ∧
        Registers identity source selects working version final)
      (Within codec disk base) := by
  apply (Version.appendVersion_ensures identity source prompt metadata remember selects).weaken
  · intro version final appended
    exact within.appended supported extra appended
  · intro final stopped
    exact within.unappended supported stopped

theorem restoreCurrent {state : CurrentState} (temporary : ∀ path, state.backup = some path →
      ∃ index, path = .temporary index) {next : Working Bytes}
    (restored : restoreCurrent state working = some next) :
    Within codec disk base next := by
  have media := Free.media within.ofBase state.currentFile
  unfold Version.restoreCurrent at restored
  split at restored
  · split at restored <;> cases restored
    · exact within
    · exact within.write media none
  · next backup isBackup =>
      obtain ⟨index, isTemporary⟩ := temporary backup isBackup
      obtain ⟨bytes, _, moved⟩ := Option.map_eq_some_iff.mp restored
      rw [← moved, isTemporary]
      exact within.move (Free.temporary within.ofBase index) media bytes

theorem unlinkPaths {paths : List Path} (free : ∀ path ∈ paths, Free base path) :
    Within codec disk base (unlinkPaths environment paths working) := by
  apply unlinkPaths_keeps _ _ within
  · intro state count before
    exact before.atStep count
  · intro path member state before
    exact before.write (free path member) none

theorem rollBack {snapshot : Option Bytes}
    (isOld : snapshot = disk.files versionsFile) (message : String) (failure : VersionError) :
    Within codec disk base (rollBack environment snapshot message failure working).2 := by
  unfold Version.rollBack
  apply tryAll_keeps _ _ within
  · intro state count before
    exact before.atStep count
  · intro step member state next before stepped
    rcases mem_append.mp member with isCurrent | isLater
    · obtain ⟨current, isState, isStep⟩ := mem_map.mp isCurrent
      subst isStep
      exact before.restoreCurrent (fun path isBackup =>
        within.backups current (mem_reverse.mp isState) path isBackup)
        stepped
    · rcases mem_cons.mp isLater with isHistory | isSnapshot
      · subst isHistory
        cases stepped
        exact before.store (.inl isOld)
      · obtain ⟨path, isCreated, isStep⟩ := mem_map.mp isSnapshot
        subst isStep
        cases stepped
        exact before.write (within.created path isCreated) none

end

end Within

/-- `versions.json` holds the working copy. -/
def Saved (codec : VersionsCodec Bytes) (working : Working Bytes) : Prop :=
  working.files versionsFile = some (codec.dump working.data)

/-- A selection is about its resource, its canonical file and its
snapshots. -/
theorem Selects.carry {currentFile : String} (selects : Selects identity currentFile start)
    (sameData : final.data.get? identity = start.data.get? identity)
    (sameCanonical : final.files (.media currentFile) = start.files (.media currentFile))
    (sameSnapshots : ∀ (number : Nat) timestamp, final.files
        (.managed (versionRelPath identity number timestamp)) =
      start.files (.managed (versionRelPath identity number timestamp))) :
    Selects identity currentFile final := by
  obtain ⟨number, bytes, points, keeps, canonical⟩ := selects
  refine ⟨number, bytes, ?_, keeps.carry sameData (sameSnapshots number), ?_⟩
  · obtain ⟨resource, found, isCurrent⟩ := points
    exact ⟨resource, sameData.trans found, isCurrent⟩
  · exact sameCanonical.trans canonical

/-- What a selecting operation has reached when it returns. -/
structure Committed (codec : VersionsCodec Bytes) (disk : Disk Bytes)
    (base : VersionsData) (goal : Working Bytes → Prop) (working : Working Bytes) : Prop where
  within : Within codec disk base working
  saved : Saved codec working
  reached : goal working

/-- A goal that only looks at the document and at files other than
`versions.json` and the temporary ones. -/
def Steady (goal : Working Bytes → Prop) : Prop :=
  ∀ start final : Working Bytes, goal start → final.data = start.data →
    (∀ path, path ≠ versionsFile → (∀ index, path ≠ .temporary index) →
      final.files path = start.files path) → goal final

theorem Selects.steady (identity : Identity) (currentFile : String) :
    Steady (fun working : Working Bytes => Selects identity currentFile working) := by
  intro start final selects sameData sameFiles
  apply selects.carry
  · rw [sameData]
  · exact sameFiles _ nofun nofun
  · intro number timestamp
    exact sameFiles _ (versionRelPath_ne_versionsFile identity number timestamp) nofun

/-- The last steps of a transaction: write the history, run the callback. -/
theorem Within.close {goal : Working Bytes → Prop} (steady : Steady goal)
    (within : Within codec disk base working) (reached : goal working) (given : Bool) :
    Ensures working (saveAndNotify codec environment given)
      (fun _ => Committed codec disk base goal) (fun final => Within codec disk base final ∧
        final.data = working.data) := by
  apply Ensures.bind saveVersions_ensures
  · intro final failed
    obtain ⟨steps, isFinal⟩ := failed
    rw [isFinal]
    exact ⟨within.atStep steps, rfl⟩
  intro _ saved isSaved
  obtain ⟨steps, isSaved⟩ := isSaved
  have still : ∀ count, Committed codec disk base goal (saved.atStep count) := by
    intro count
    subst isSaved
    constructor
    · exact (within.save.atStep steps).atStep count
    · exact (files_write _ _ _ _).trans (if_pos rfl)
    · refine steady working _ reached rfl ?_
      intro path notHistory _
      exact (files_write _ _ _ _).trans (if_neg notHistory)
  apply (runCallback_ensures given).weaken
  · intro _ final passed
    obtain ⟨count, isFinal⟩ := passed
    rw [isFinal]
    exact still count
  · intro final failed
    obtain ⟨count, isFinal⟩ := failed
    refine ⟨?_, ?_⟩
    · rw [isFinal]
      exact (still count).within
    · rw [isFinal, isSaved]
      rfl

namespace Committed

variable {goal : Working Bytes → Prop} {working : Working Bytes}

theorem unlinkPaths (steady : Steady goal) {paths : List Path}
    (each : ∀ path ∈ paths, ∀ state, Committed codec disk base goal state →
      Committed codec disk base goal (state.write path none))
    (committed : Committed codec disk base goal working) :
    Committed codec disk base goal (unlinkPaths environment paths working) := by
  apply unlinkPaths_keeps _ each committed
  intro state count before
  exact ⟨before.within.atStep count, before.saved,
    steady state _ before.reached rfl (fun _ _ _ => rfl)⟩

theorem unlinkTemporary (steady : Steady goal)
    (committed : Committed codec disk base goal working) (index : Nat) :
    Committed codec disk base goal (working.write (.temporary index) none) := by
  have free := Free.temporary committed.within.ofBase index
  constructor
  · exact committed.within.write free none
  · exact (files_write _ _ _ _).trans ((if_neg free.notHistory.symm).trans committed.saved)
  · refine steady working _ committed.reached rfl ?_
    intro other _ notTemporary
    rw [files_write, if_neg (notTemporary index)]

theorem removeBackups (steady : Steady goal) (committed : Committed codec disk base goal working) :
    Committed codec disk base goal (Version.unlinkPaths environment working.backups working) := by
  refine committed.unlinkPaths steady ?_
  intro path member state before
  obtain ⟨current, isState, isBackup⟩ := mem_filterMap.mp member
  obtain ⟨index, isTemporary⟩ := committed.within.backups current isState path isBackup
  subst isTemporary
  exact before.unlinkTemporary steady index

end Committed

end MatrixSpooll.Version
