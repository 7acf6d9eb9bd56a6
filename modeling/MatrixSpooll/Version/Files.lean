import MatrixSpooll.Library.Attempt
import MatrixSpooll.Library.Dict
import MatrixSpooll.Library.Json

/-!
# The files of a version transaction

The version manager works on the canonical and staged media of the project, on
its own directory `versions/` and on temporary files beside the media.  Every
file system step, every read or write of `versions.json` and every callback
may fail; the `Environment` says which ones do.  A copy that fails may leave
its destination half written, a replacement is atomic.  Steps taken to undo or
to clean up are best effort: they never raise.
-/

namespace MatrixSpooll.Version

open MatrixSpooll.Library

/-- A file, by its resolved place: media outside `versions/`, a file below
`versions/` by its path relative to the project, or a file that `mkstemp`
made. -/
inductive Path where
  | media (file : String)
  | managed (relative : String)
  | temporary (index : Nat)
  deriving DecidableEq

def Path.text : Path → String
  | .media file => file
  | .managed relative => relative
  | .temporary _ => ""

/-- `self.project_path / relative`. -/
def projectFile (relative : String) : Path :=
  if "versions/".toList.isPrefixOf relative.toList then .managed relative
  else .media relative

/-- `self.versions_file`. -/
def versionsFile : Path := .managed "versions/versions.json"

/-- Type and id of a versioned resource. -/
structure Identity where
  resourceType : String
  resourceId : String
  deriving DecidableEq

abbrev VersionRecord := List (String × Json)

structure ResourceData where
  currentVersion : Json
  versions : List VersionRecord

/-- `{"current_version": 0, "versions": []}`. -/
def ResourceData.fresh : ResourceData :=
  { currentVersion := .int 0
    versions := [] }

/-- The document in `versions.json`, its two levels of keys in one. -/
abbrev VersionsData := Dict Identity ResourceData

/-- `json.dump` and `json.load` of the document. -/
structure VersionsCodec (Bytes : Type) where
  dump : VersionsData → Bytes
  load : Bytes → Option VersionsData
  load_dump : ∀ data, load (dump data) = some data

inductive VersionError where
  | valueError (message : String)
  | typeError (message : String)
  | fileNotFound (message : String)
  | badRequest (key : String) (resourceType : String)
  | resourceNotFound (key : String) (identity : Identity)
  | versionNotFound (key : String) (version : Int)
  | sameFile
  | malformedHistory
  | osError
  | callbackFailed
  | runtimeError (message : String)

/-- The fallible steps, by what they do. -/
inductive Operation where
  | read
  | makeDirectories
  | makeTemporary
  | copy
  | replace
  | save
  | callback
  deriving DecidableEq

inductive StepResult (Bytes : Type) where
  | completes
  | fails (written : Option Bytes)

/-- `strftime("%Y%m%dT%H%M%S")`: digits around a `T`. -/
structure Timestamp where
  text : String
  noUnderscore : '_' ∉ text.toList

/-- What the steps of one call meet, by the number of steps before them. -/
structure Environment (Bytes : Type) where
  outcome : Nat → Operation → StepResult Bytes
  bestEffort : Nat → Bool
  timestamp : Nat → Timestamp
  isoTimestamp : Nat → String

structure Disk (Bytes : Type) where
  files : Path → Option Bytes
  temporaries : Nat

/-- `(current_file, current_existed, backup)`. -/
structure CurrentState where
  currentFile : String
  existed : Bool
  backup : Option Path

/-- The disk together with the variables of the running call. -/
structure Working (Bytes : Type) extends Disk Bytes where
  steps : Nat
  data : VersionsData
  createdSnapshots : List Path
  currentStates : List CurrentState
  result : List (Identity × Int)

def Disk.start {Bytes : Type} (disk : Disk Bytes) : Working Bytes :=
  { toDisk := disk
    steps := 0
    data := Dict.empty
    createdSnapshots := []
    currentStates := []
    result := [] }

variable {Bytes : Type}

/-- A step of a call. -/
abbrev Stage (Bytes : Type) := Attempt (Working Bytes) VersionError

namespace Working

variable (working : Working Bytes)

def write (path : Path) (content : Option Bytes) : Working Bytes :=
  { working with files := Function.update working.files path content }

def advance : Working Bytes :=
  { working with steps := working.steps + 1 }

/-- `os.replace` of a source with these bytes. -/
def move (source target : Path) (bytes : Bytes) : Working Bytes :=
  (working.write source none).write target (some bytes)

def hasFile (path : Path) : Bool :=
  (working.files path).isSome

end Working

section Steps

variable (environment : Environment Bytes)

/-- A step with no effect on the files that matter here. -/
def passStep (operation : Operation) (failure : VersionError) : Stage Bytes Unit := fun working =>
  match environment.outcome working.steps operation with
  | .completes => (.ok (), working.advance)
  | .fails _ => (.error failure, working.advance)

/-- `shutil.copy2(source, target)`. -/
def copyFile (source target : Path) : Stage Bytes Unit := fun working =>
  match working.files source with
  | none => (.error .osError, working.advance)
  | some bytes =>
    if source = target then (.error .sameFile, working.advance)
    else
      match environment.outcome working.steps .copy with
      | .completes => (.ok (), working.advance.write target (some bytes))
      | .fails none => (.error .osError, working.advance)
      | .fails (some written) =>
        (.error .osError, working.advance.write target (some written))

/-- `os.replace(source, target)`. -/
def replaceFile (source target : Path) : Stage Bytes Unit := fun working =>
  match working.files source with
  | none => (.error .osError, working.advance)
  | some bytes =>
    match environment.outcome working.steps .replace with
    | .completes => (.ok (), working.advance.move source target bytes)
    | .fails _ => (.error .osError, working.advance)

/-- One of the steps that report an `OSError` without raising it. -/
def tryStep (progress : Working Bytes × Bool)
    (step : Working Bytes → Option (Working Bytes)) : Working Bytes × Bool :=
  match environment.bestEffort progress.1.steps, step progress.1.advance with
  | true, some next => (next, progress.2)
  | _, _ => (progress.1.advance, false)

/-- Best-effort steps one after the other, and whether all of them worked. -/
def tryAll (steps : List (Working Bytes → Option (Working Bytes)))
    (working : Working Bytes) : Working Bytes × Bool :=
  steps.foldl (tryStep environment) (working, true)

/-- `path.unlink(missing_ok=True)`. -/
def unlink (path : Path) (working : Working Bytes) : Option (Working Bytes) :=
  some (working.write path none)

/-- `_unlink_paths`, whose failures are only reported. -/
def unlinkPaths (paths : List Path) (working : Working Bytes) : Working Bytes :=
  (tryAll environment (paths.map unlink) working).1

/-- `tempfile.mkstemp`: a name that no file has had. -/
def makeTemporary : Stage Bytes Path := fun working =>
  match environment.outcome working.steps .makeTemporary with
  | .completes =>
    (.ok (.temporary working.temporaries),
      { working.advance with temporaries := working.temporaries + 1 })
  | .fails _ => (.error .osError, working.advance)

def createRollbackBackup (currentFile : String) : Stage Bytes Path := do
  let candidate ← makeTemporary environment
  (copyFile environment (.media currentFile) candidate).orUndo (fun failure working =>
      (failure, unlinkPaths environment [candidate] working))
  pure candidate

/-- `on_commit`, `on_select`, `on_reject` or `on_restore`, if there is one. -/
def runCallback (given : Bool) : Stage Bytes Unit :=
  if given then passStep environment .callback .callbackFailed else pure ()

end Steps

section History

variable (codec : VersionsCodec Bytes) (environment : Environment Bytes)

/-- `self.versions_file.read_bytes() if versions_existed else None`. -/
def readVersionsFile : Stage Bytes (Option Bytes) := do
  passStep environment .read .osError
  Attempt.read (fun working => working.files versionsFile)

/-- The document on disk; `none` when it cannot be decoded. -/
def Disk.history? (disk : Disk Bytes) : Option VersionsData :=
  match disk.files versionsFile with
  | none => some Dict.empty
  | some bytes => codec.load bytes

/-- `data = self._load_versions()`. -/
def loadVersions : Stage Bytes Unit := do
  passStep environment .read .osError
  Attempt.demand (fun working => (working.history? codec).isSome) (fun _ => .malformedHistory)
  Attempt.change (fun working =>
    { working with data := (working.history? codec).getD Dict.empty })

/-- `self._save_versions(data)`. -/
def saveVersions : Stage Bytes Unit := do
  passStep environment .makeDirectories .osError
  passStep environment .save .osError
  Attempt.change (fun working =>
    working.write versionsFile (some (codec.dump working.data)))

end History

/-- Put a canonical file back as it was found. -/
def restoreCurrent (state : CurrentState) (working : Working Bytes) : Option (Working Bytes) :=
  match state.backup with
  | none =>
    if state.existed then some working
    else some (working.write (.media state.currentFile) none)
  | some backup =>
    (working.files backup).map (working.move backup (.media state.currentFile))

/-- Put `versions.json` back byte for byte. -/
def restoreVersionsFile (snapshot : Option Bytes) (working : Working Bytes) :
    Option (Working Bytes) :=
  some (working.write versionsFile snapshot)

/-- The failure that leaves a rolled back transaction. -/
def reportRollback (complete : Bool) (message : String) (failure : VersionError) : VersionError :=
  if complete then failure else .runtimeError message

end MatrixSpooll.Version
