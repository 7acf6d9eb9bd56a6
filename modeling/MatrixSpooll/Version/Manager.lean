import MatrixSpooll.Version.Files

/-!
# The version manager

The six operations that change `versions.json` or select a version, as
`version_manager.py` performs them under the lock of the versions file.  A
caller's file argument names media outside `versions/`; a callback is known
only by whether it raises.
-/

namespace MatrixSpooll.Version

open MatrixSpooll.Library Attempt

/-! ## Resource paths -/

structure ResourcePattern where
  subdir : String
  extension : String
  leading : String

/-- `_PATTERNS`. -/
def resourcePatterns : List (String × ResourcePattern) :=
  [("storyboards", ⟨"storyboards", ".png", "scene_"⟩),
    ("end_frames", ⟨"end_frames", ".png", "scene_"⟩), ("videos", ⟨"videos", ".mp4", "scene_"⟩),
    ("characters", ⟨"characters", ".png", ""⟩),
    ("scenes", ⟨"scenes", ".png", ""⟩), ("props", ⟨"props", ".png", ""⟩),
    ("products", ⟨"products", ".png", ""⟩), ("grids", ⟨"grids", ".png", ""⟩),
    ("reference_videos", ⟨"reference_videos", ".mp4", ""⟩),
    ("free_images", ⟨"creations", ".png", ""⟩), ("free_videos", ⟨"creations", ".mp4", ""⟩),
    ("audio", ⟨"audio", ".wav", "segment_"⟩)]

def resourceTypes : List String := resourcePatterns.map Prod.fst

/-- `resource_relative_path`; `none` is the `ValueError` of an unknown
type. -/
def resourceRelativePath (identity : Identity) : Option String :=
  (resourcePatterns.lookup identity.resourceType).map (fun pattern =>
    pattern.subdir ++ "/" ++ pattern.leading ++ identity.resourceId ++ pattern.extension)

/-- `self.EXTENSIONS.get(resource_type, ".png")`. -/
def versionExtension (resourceType : String) : String :=
  ((resourcePatterns.lookup resourceType).map ResourcePattern.extension).getD ".png"

/-- Where the snapshot of a version is kept. -/
def versionRelPath (identity : Identity) (version : Int) (timestamp : Timestamp) : String :=
  "versions/" ++ identity.resourceType ++ "/" ++ identity.resourceId ++ "_v" ++
    toString version ++ "_" ++ timestamp.text ++
    versionExtension identity.resourceType

/-! ## Records -/

/-- A JSON value as the integer that `max` and `+` take it for; `none` stands
for the `TypeError`. -/
def asNumber : Json → Option Int
  | .int value => some value
  | .bool value => some (if value then 1 else 0)
  | _ => none

/-- `value == number`. -/
def equalsNumber (value : Json) (number : Int) : Bool :=
  asNumber value = some number

/-- `item.get("version", 0)`. -/
def versionOf (record : VersionRecord) : Json :=
  (record.lookup "version").getD (.int 0)

/-- `max(numbers, default=0)`. -/
def maximum : List Int → Int
  | [] => 0
  | first :: rest => rest.foldl max first

/-- `max(item.get("version", 0) for item in records) + 1`. -/
def nextVersion (records : List VersionRecord) : Option Int :=
  (records.mapM (fun record => asNumber (versionOf record))).map
    (fun numbers => maximum numbers + 1)

/-- The record of a new version.  The metadata comes after the record's own
keys and overrides them. -/
def newRecord (version : Int) (file prompt createdAt : String)
    (metadata : List (String × Json)) (previous : Int) : VersionRecord :=
  Json.put (metadata.foldl (fun record entry => Json.put record entry.1 entry.2)
      [("version", .int version), ("file", .str file), ("prompt", .str prompt),
        ("created_at", .str createdAt)])
    "_previous_current_version" (.int previous)

/-- The selected version to remember, `0` if it is not an integer. -/
def rememberedVersion (current : Json) : Int := current.asInt?.getD 0

def rememberedNonnegative (current : Json) : Int :=
  max (rememberedVersion current) 0

def findVersion (records : List VersionRecord) (version : Int) : Option VersionRecord :=
  records.find? (fun record => equalsNumber (Json.get record "version") version)

variable {Bytes : Type}

namespace Working

variable (working : Working Bytes) (identity : Identity)

/-- `data.setdefault(resource_type, {}).setdefault(resource_id, …)`. -/
def resource : ResourceData :=
  (working.data.get? identity).getD .fresh

def putResource (resource : ResourceData) : Working Bytes :=
  { working with data := working.data.put identity resource }

def select (version : Json) : Working Bytes :=
  working.putResource identity
    { working.resource identity with currentVersion := version }

end Working

/-- `raise … if` the resource type is not supported. -/
def checkResourceType (identity : Identity) (failure : VersionError) : Stage Bytes Unit :=
  demand (fun _ => resourceTypes.contains identity.resourceType) (fun _ => failure)

def unsupportedType (identity : Identity) : VersionError :=
  .valueError ("不支持的资源类型: " ++ identity.resourceType)

/-- `if not staged_file.is_file(): raise`. -/
def checkStaged (stagedFile : String) : Stage Bytes Unit :=
  demand (fun working => working.hasFile (.media stagedFile))
    (fun _ => .fileNotFound ("staged version file does not exist: " ++ stagedFile))

section Operations

variable (codec : VersionsCodec Bytes) (environment : Environment Bytes)

variable (working : Working Bytes) (identity : Identity)

/-- The number of the next version of a resource. -/
def takeNumber : Stage Bytes Int := fun working =>
  match nextVersion (working.resource identity).versions with
  | some version => (.ok version, working)
  | none => (.error (.typeError "version numbers cannot be compared"), working)

/-- A resource with one more record; `selects` says whether it points to
it. -/
def ResourceData.append (resource : ResourceData) (version : Int)
    (file prompt createdAt : String) (metadata : List (String × Json))
    (remember : Json → Int) (selects : Bool) : ResourceData :=
  { currentVersion :=
      if selects then .int version else resource.currentVersion
    versions := resource.versions ++ [newRecord version file prompt createdAt metadata
        (remember resource.currentVersion)] }

/-- `records.append({…})`. -/
def appendRecord (version : Int) (file prompt : String)
    (metadata : List (String × Json)) (remember : Json → Int) (selects : Bool) :
    Stage Bytes Unit :=
  change (fun working =>
    working.putResource identity ((working.resource identity).append version file prompt
        (environment.isoTimestamp working.steps) metadata remember selects))

variable (record : VersionRecord) (path : Path) (currentFile : String)

/-- `created_snapshots.append(abs_path)`. -/
def Working.noteSnapshot : Working Bytes :=
  { working with createdSnapshots := working.createdSnapshots ++ [path] }

/-- `_append_version` and `_append_snapshot`: copy the source into the history
and append its record. -/
def appendVersion (source : String) (prompt : String)
    (metadata : List (String × Json)) (remember : Json → Int) (selects : Bool) :
    Stage Bytes Int := do
  let version ← takeNumber identity
  let file ← read (fun working =>
    versionRelPath identity version (environment.timestamp working.steps))
  passStep environment .makeDirectories .osError
  copyFile environment (.media source) (projectFile file)
  change (fun working => working.noteSnapshot (projectFile file))
  appendRecord environment identity version file prompt metadata remember selects
  pure version

/-- Take an untracked canonical file into the history. -/
def trackCurrent (remember : Json → Int) : Stage Bytes Unit :=
  branch (fun working => working.hasFile (.media currentFile) &&
      !(working.resource identity).currentVersion.isTrue)
    (do
      let _ ← appendVersion environment identity currentFile "" [] remember true
      pure ())
    (pure ())

/-- Note whether the canonical file exists before the transaction. -/
def observeCurrent : Stage Bytes Unit :=
  change (fun working =>
    { working with
      currentStates :=
        [⟨currentFile, working.hasFile (.media currentFile), none⟩] })

/-- Make the backup of the canonical file, if there is one. -/
def backUpCurrent : Stage Bytes Unit :=
  branch (fun working => working.hasFile (.media currentFile)) (do
      let backup ← createRollbackBackup environment currentFile
      change (fun working =>
        { working with
          currentStates := [⟨currentFile, true, some backup⟩] }))
    (pure ())

/-- The backups that the transaction made. -/
def Working.backups : List Path :=
  working.currentStates.filterMap CurrentState.backup

/-- Restore the canonical files, the last one first, and `versions.json`, and
remove the snapshots that were made. -/
def rollBack (snapshot : Option Bytes) (message : String)
    (failure : VersionError) (working : Working Bytes) :
    VersionError × Working Bytes :=
  let undone := tryAll environment (working.currentStates.reverse.map restoreCurrent ++
      restoreVersionsFile snapshot ::
      working.createdSnapshots.map unlink) working
  (reportRollback undone.2 message failure, undone.1)

/-- `finally: _unlink_paths(...)`. -/
def removeLeftovers (paths : Working Bytes → List Path) : Stage Bytes Unit :=
  change (fun working => unlinkPaths environment (paths working) working)

/-- `self._save_versions(data)` and the callback that ends a transaction. -/
def saveAndNotify (given : Bool) : Stage Bytes Unit := do
  saveVersions codec environment
  runCallback environment given

/-- `add_version`.  It selects the new version and leaves the canonical file
alone. -/
def addVersion (prompt : String) (sourceFile : Option String) (metadata : List (String × Json)) :
    Stage Bytes Int := do
  checkResourceType identity (unsupportedType identity)
  loadVersions codec environment
  let version ← takeNumber identity
  let file ← read (fun working =>
    versionRelPath identity version (environment.timestamp working.steps))
  copySource sourceFile file
  appendRecord environment identity version file prompt metadata rememberedVersion true
  saveVersions codec environment
  pure version
where
  /-- `if source_file and Path(source_file).exists()`. -/
  copySource (sourceFile : Option String) (file : String) : Stage Bytes Unit :=
    match sourceFile with
    | none => pure ()
    | some source =>
      branch (fun working => working.hasFile (.media source)) (do
          passStep environment .makeDirectories .osError
          copyFile environment (.media source) (projectFile file))
        (pure ())

/-- The guarded part of `commit_staged_version`. -/
def activateStaged (prompt : String) (stagedFile currentFile : String)
    (onCommit : Bool) (metadata : List (String × Json)) : Stage Bytes Int := do
  passStep environment .makeDirectories .osError
  backUpCurrent environment currentFile
  trackCurrent environment identity currentFile rememberedVersion
  let version ← appendVersion environment identity stagedFile prompt metadata rememberedVersion true
  replaceFile environment (.media stagedFile) (.media currentFile)
  saveAndNotify codec environment onCommit
  pure version

def commitStagedVersion (prompt : String) (stagedFile currentFile : String)
    (onCommit : Bool) (metadata : List (String × Json)) : Stage Bytes Int := do
  checkResourceType identity (unsupportedType identity)
  checkStaged stagedFile
  let snapshot ← readVersionsFile environment
  loadVersions codec environment
  observeCurrent currentFile
  let version ← (activateStaged codec environment identity prompt stagedFile
    currentFile onCommit metadata).orUndo (rollBack environment snapshot
      "version activation failed and durable rollback was incomplete")
  removeLeftovers environment Working.backups
  pure version

structure StagedVersionCommit where
  identity : Identity
  prompt : String
  stagedFile : String
  currentFile : String
  metadata : List (String × Json)

/-- `{identity!r}` of the pair. -/
def Identity.text : String :=
  "('" ++ identity.resourceType ++ "', '" ++ identity.resourceId ++ "')"

/-- The checks on one member, after those of the members before it. -/
def checkMember (before : List StagedVersionCommit)
    (commit : StagedVersionCommit) : Stage Bytes Unit := do
  checkResourceType commit.identity (unsupportedType commit.identity)
  demand (fun _ => commit.identity ∉ before.map StagedVersionCommit.identity)
    (fun _ => .valueError ("duplicate staged version identity: " ++ commit.identity.text))
  checkStaged commit.stagedFile
  demand (fun _ => commit.currentFile ∉ before.map StagedVersionCommit.currentFile)
    (fun _ => .valueError ("duplicate staged version target: " ++ commit.currentFile))

def checkBatch (before : List StagedVersionCommit) : List StagedVersionCommit → Stage Bytes Unit
  | [] => pure ()
  | commit :: rest => do
      checkMember before commit
      checkBatch (before ++ [commit]) rest

/-- `current_states.append((current_file, current_existed, backup))`. -/
def Working.remember (state : CurrentState) : Working Bytes :=
  { working with currentStates := working.currentStates ++ [state] }

/-- `backup = … if current_existed else None` and the entry that remembers
it. -/
def rememberCurrent : Stage Bytes Unit :=
  branch (fun working => working.hasFile (.media currentFile)) (do
      let backup ← createRollbackBackup environment currentFile
      change (fun working => working.remember ⟨currentFile, true, some backup⟩))
    (change (fun working => working.remember ⟨currentFile, false, none⟩))

/-- One turn of the loop over the batch. -/
def activateMember (commit : StagedVersionCommit) : Stage Bytes Unit := do
  passStep environment .makeDirectories .osError
  rememberCurrent environment commit.currentFile
  trackCurrent environment commit.identity commit.currentFile rememberedNonnegative
  let version ← appendVersion environment commit.identity commit.stagedFile
    commit.prompt commit.metadata rememberedNonnegative true
  replaceFile environment (.media commit.stagedFile) (.media commit.currentFile)
  change (fun working =>
    { working with result := working.result ++ [(commit.identity, version)] })

variable (commits : List StagedVersionCommit)

/-- The guarded part of `commit_staged_versions`. -/
def activateBatch (onCommit : Bool) : Stage Bytes Unit := do
  forEach commits (activateMember environment)
  saveAndNotify codec environment onCommit

/-- `commit_staged_versions` of a batch that is not empty. -/
def commitBatch (onCommit : Bool) : Stage Bytes (List (Identity × Int)) := do
  checkBatch [] commits
  let snapshot ← readVersionsFile environment
  loadVersions codec environment
  (activateBatch codec environment commits onCommit).orUndo (rollBack environment snapshot
      "batch version activation failed and durable rollback was incomplete")
  removeLeftovers environment Working.backups
  read Working.result

def commitStagedVersions (onCommit : Bool) : Stage Bytes (List (Identity × Int)) :=
  match commits with
  | [] => pure []
  | commits => commitBatch codec environment commits onCommit

/-! ## Paid versions -/

structure PaidVersionCommit where
  version : Int
  selected : Bool

/-- `select_current`: a truth value, or a callable with what it answers;
`none` stands for a callable that raises or returns something else. -/
inductive SelectCurrent where
  | always (value : Bool)
  | guarded (answer : Option Bool)

/-- What the history part of a paid commit leaves for the selection. -/
structure PaidHistory where
  version : Int
  submittedCurrent : Int
  priorCurrent : Int

/-- `if not isinstance(…) or … < 0: … = 0`. -/
def Working.normalizeCurrent : Working Bytes :=
  match (working.resource identity).currentVersion with
  | .int value => if 0 ≤ value then working else working.select identity (.int 0)
  | _ => working.select identity (.int 0)

/-- The history part of `commit_staged_paid_version`. -/
def recordPaid (prompt : String) (stagedFile currentFile : String)
    (metadata : List (String × Json)) :
    Stage Bytes PaidHistory := do
  let submitted ← read (fun working =>
    rememberedNonnegative (working.resource identity).currentVersion)
  trackCurrent environment identity currentFile rememberedNonnegative
  change (fun working => working.normalizeCurrent identity)
  let prior ← read (fun working =>
    rememberedNonnegative (working.resource identity).currentVersion)
  let version ← appendVersion environment identity stagedFile prompt metadata
    rememberedNonnegative false
  saveVersions codec environment
  pure ⟨version, submitted, prior⟩

/-- The failed history part: no canonical file has been touched, and the
staged file goes as well. -/
def rollBackHistory (snapshot : Option Bytes) (stagedFile : String)
    (failure : VersionError) (working : Working Bytes) :
    VersionError × Working Bytes :=
  let undone := tryAll environment (restoreVersionsFile snapshot ::
      (working.createdSnapshots ++ [Path.media stagedFile]).map unlink) working
  (reportRollback undone.2 "paid version history commit failed and rollback was incomplete" failure,
    undone.1)

/-- `should_select`. -/
def decideSelection (history : PaidHistory) (selectCurrent : SelectCurrent)
    (expectedCurrent : Option Int) : Stage Bytes Bool := fun working =>
  match expectedCurrent with
  | some expected =>
    if history.submittedCurrent ≠ expected then (.ok false, working)
    else answer working
  | none => answer working
where
  answer : Stage Bytes Bool := fun working =>
    match selectCurrent with
    | .always value => (.ok value, working)
    | .guarded (some value) => (.ok value, working)
    | .guarded none => (.error .callbackFailed, working)

variable (stagedFile : String) (version : Int)

def selectPaid (currentFile : String) (version : Int) (onSelect : Bool) : Stage Bytes Unit := do
  passStep environment .makeDirectories .osError
  backUpCurrent environment currentFile
  replaceFile environment (.media stagedFile) (.media currentFile)
  change (fun working => working.select identity (.int version))
  saveAndNotify codec environment onSelect

/-- `self._save_versions(data)` as a step of the rollback. -/
def resave : Option (Working Bytes) :=
  some (working.write versionsFile (some (codec.dump working.data)))

/-- The failed selection: canonical file and pointer go back, the paid version
stays in the history. -/
def rollBackSelection (priorCurrent : Int) (failure : VersionError)
    (working : Working Bytes) : VersionError × Working Bytes :=
  let undone := tryAll environment
    (working.currentStates.reverse.map restoreCurrent ++ [resave codec])
    (working.select identity (.int priorCurrent))
  (reportRollback undone.2 "paid version selection failed and durable rollback was incomplete"
    failure, unlinkPaths environment [.media stagedFile] undone.1)

/-- The outcome once the paid version is in the history. -/
def settlePaid (currentFile : String) (history : PaidHistory)
    (selected onSelect : Bool) : Stage Bytes PaidVersionCommit :=
  if selected then do
    observeCurrent currentFile
    (selectPaid codec environment identity stagedFile currentFile history.version onSelect).orUndo
      (rollBackSelection codec environment identity stagedFile history.priorCurrent)
    removeLeftovers environment (fun working => Path.media stagedFile :: working.backups)
    pure ⟨history.version, true⟩
  else do
    removeLeftovers environment (fun _ => [.media stagedFile])
    pure ⟨history.version, false⟩

def commitStagedPaidVersion (prompt : String)
    (stagedFile currentFile : String) (selectCurrent : SelectCurrent)
    (expectedCurrent : Option Int) (onSelect : Bool)
    (metadata : List (String × Json)) : Stage Bytes PaidVersionCommit := do
  checkResourceType identity (unsupportedType identity)
  demand (fun _ => expectedCurrent.all (fun expected => 0 ≤ expected)) (fun _ => .valueError
      "expected_current_version must be a non-negative integer or null")
  checkStaged stagedFile
  let snapshot ← readVersionsFile environment
  loadVersions codec environment
  let history ← (recordPaid codec environment identity prompt stagedFile
    currentFile metadata).orUndo (rollBackHistory environment snapshot stagedFile)
  let selected ← (decideSelection history selectCurrent
    expectedCurrent).orUndo (fun failure working =>
      (failure, unlinkPaths environment [.media stagedFile] working))
  settlePaid codec environment identity stagedFile currentFile history selected onSelect

/-! ## Going back to an older version -/

/-- The greatest number below the rejected one, for records that do not
remember what was selected before them. -/
def legacyPrevious (records : List VersionRecord) (rejectedVersion : Int) : Int :=
  maximum ((records.filterMap (fun record =>
    (Json.get record "version").asInt?)).filter (fun version => version < rejectedVersion))

/-- The version that a rejection goes back to. -/
def restoreTarget (records : List VersionRecord)
    (rejectedRecord : VersionRecord) (rejectedVersion : Int) (restoreVersion : Option Int) : Int :=
  match restoreVersion with
  | some version => version
  | none =>
    match (Json.get rejectedRecord "_previous_current_version").asInt? with
    | some recorded =>
      if 0 ≤ recorded then recorded
      else legacyPrevious records rejectedVersion
    | none => legacyPrevious records rejectedVersion

/-- `self.project_path / record["file"]`. -/
def recordFile : Option Path :=
  (Json.get record "file").asStr?.map projectFile

/-- `previous["file"]` of a record without a usable entry raises. -/
def takeRecordFile : Stage Bytes Path :=
  fun working =>
    match recordFile record with
    | some path => (.ok path, working)
    | none => (.error (.typeError "file"), working)

/-- `if not path.is_file(): raise`. -/
def checkVersionFile : Stage Bytes Unit :=
  demand (fun working => working.hasFile path) (fun _ => .fileNotFound ("版本文件不存在: " ++ path.text))

/-- Replace the canonical file by a copy of `path` made beside it. -/
def replaceByCopy : Stage Bytes Unit := do
  let replacement ← makeTemporary environment
  (do
    copyFile environment path replacement
    replaceFile environment replacement (.media currentFile) :
    Stage Bytes Unit).orUndo (fun failure working =>
      (failure, unlinkPaths environment [replacement] working))

/-- Put the canonical file and the pointer on the previous version, or on
none. -/
def goBack (previous : Option VersionRecord) (currentFile : String) : Stage Bytes Unit :=
  match previous with
  | none =>
    change (fun working =>
      (working.write (.media currentFile) none).select identity (.int 0))
  | some record => do
      let path ← takeRecordFile record
      checkVersionFile path
      replaceByCopy environment path currentFile
      change (fun working => working.select identity (Json.get record "version"))

/-- The guarded part of `reject_current_version`. -/
def rejectCurrent (previous : Option VersionRecord) (currentFile : String)
    (onReject : Bool) : Stage Bytes Unit := do
  passStep environment .makeDirectories .osError
  backUpCurrent environment currentFile
  goBack environment identity previous currentFile
  saveAndNotify codec environment onReject

/-- `reject_current_version` of the version that is selected. -/
def rejectSelected (resource : ResourceData) (rejectedRecord : VersionRecord)
    (rejectedVersion : Int) (restoreVersion : Option Int) (currentFile : String) (onReject : Bool) :
    Stage Bytes Bool := do
  let target := restoreTarget resource.versions rejectedRecord rejectedVersion restoreVersion
  demand (fun _ => 0 ≤ target)
    (fun _ => .valueError "restore_version must be a non-negative integer")
  demand (fun _ => target = 0 || (findVersion resource.versions target).isSome)
    (fun _ => .valueError ("restore version does not exist: " ++ toString target))
  let snapshot ← readVersionsFile environment
  observeCurrent currentFile
  (rejectCurrent codec environment identity
    (findVersion resource.versions target) currentFile onReject).orUndo
    (rollBack environment snapshot "version rejection failed and durable rollback was incomplete")
  removeLeftovers environment Working.backups
  pure true

def rejectCurrentVersion (rejectedVersion : Int) (restoreVersion : Option Int)
    (currentFile : String) (onReject : Bool) :
    Stage Bytes Bool := do
  checkResourceType identity (unsupportedType identity)
  loadVersions codec environment
  let resource ← read (fun working => working.data.get? identity)
  answer resource
where
  answer : Option ResourceData → Stage Bytes Bool
    | none => pure false
    | some resource =>
      if equalsNumber resource.currentVersion rejectedVersion then
        match findVersion resource.versions rejectedVersion with
        | none => pure false
        | some rejectedRecord =>
          rejectSelected codec environment identity resource
            rejectedRecord rejectedVersion restoreVersion currentFile
            onReject
      else pure false

/-- The guarded part of `restore_version`. -/
def restoreCopy (currentFile : String) (onRestore : Bool) : Stage Bytes Unit := do
  passStep environment .makeDirectories .osError
  backUpCurrent environment currentFile
  copyFile environment path (.media currentFile)
  change (fun working => working.select identity (.int version))
  saveAndNotify codec environment onRestore

/-- `restore_version` of a record that was found; it returns its prompt. -/
def restoreRecord (currentFile : String) (onRestore : Bool) : Stage Bytes Json := do
  let path ← takeRecordFile record
  checkVersionFile path
  let snapshot ← readVersionsFile environment
  observeCurrent currentFile
  (restoreCopy codec environment identity path version currentFile
    onRestore).orUndo (rollBack environment snapshot
      "version restore failed and durable rollback was incomplete")
  removeLeftovers environment Working.backups
  pure ((record.lookup "prompt").getD (.str ""))

def restoreVersion (currentFile : String) (onRestore : Bool) : Stage Bytes Json := do
  checkResourceType identity (.badRequest "unsupported_resource_type" identity.resourceType)
  loadVersions codec environment
  let resource ← read (fun working => working.data.get? identity)
  answer resource
where
  answer : Option ResourceData → Stage Bytes Json
    | none => fun working =>
      (.error (.resourceNotFound "version_resource_not_found" identity), working)
    | some resource =>
      match findVersion resource.versions version with
      | none => fun working =>
        (.error (.versionNotFound "version_not_found" version), working)
      | some record =>
        restoreRecord codec environment identity record version currentFile onRestore

end Operations

/-- One call from the state of the disk to the next. -/
def Disk.run {Value : Type} (disk : Disk Bytes) (call : Stage Bytes Value) :
    Except VersionError Value × Disk Bytes :=
  ((call disk.start).1, (call disk.start).2.toDisk)

end MatrixSpooll.Version
