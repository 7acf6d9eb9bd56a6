import MatrixSpooll.Asset.Files
import MatrixSpooll.Library.Checked
import MatrixSpooll.Library.Dict

/-!
# Records under the name of an asset

The version history of an asset and its claim in the artifact manifest are
filed under its name: `VersionManager.rename_resource` and
`ArtifactManifest.plan_entry_rekey` with the compare-and-swap that commits the
plan.
-/

namespace MatrixSpooll.Asset

open Library

/-! ## Version history -/

section History

variable (runtime : Runtime) (rename : AssetRename)

/-- The name of a snapshot after the renaming, if it is named after the
asset. -/
def renamedSnapshot (file : String) : Option String :=
  let basename := normalizeAssetName runtime ((pathParts (slashed file)).getLast?.getD "")
  let oldStart := normalizeAssetName runtime rename.oldName ++ "_v"
  (basename.toList.dropPrefix? oldStart.toList).map (fun rest =>
    rename.newName ++ "_v" ++ String.ofList rest)

/-- The file that a version record names. -/
def versionFile? : Json → Option String
  | .dict version => (Json.get version "file").asStr?
  | _ => none

/-- A version record with its file renamed. -/
def renameVersion : Json → Json
  | .dict version =>
    match (Json.get version "file").asStr?.bind (renamedSnapshot runtime rename) with
    | some basename => .dict (Json.put version "file" (.str
        ("versions/" ++ rename.assetType.spec.bucketKey ++ "/" ++ basename)))
    | none => .dict version
  | version => version

/-- `(src, dst)` for the snapshot of a version record. -/
def snapshotMove (folders : List Place) (version : Json) : Option (Place × Place) :=
  match versionFile? version with
  | none => none
  | some file =>
    match renamedSnapshot runtime rename file, locate folders file with
    | some basename, some source => some (source,
        ["versions", rename.assetType.spec.bucketKey, basename])
    | _, _ => none

/-- The steps of `rename_resource`. -/
structure HistoryRename where
  count : Nat
  moves : List (Place × Place)
  data : Fields

def historyCollision : Raised :=
  { kind := .assetRenameHistoryCollision
    message := "新名 " ++ runtime.repr rename.newName ++ " 下已有保留的版本历史，请先清理该历史或换一个名字" }

def notIterable (value : Json) : Raised :=
  { kind := .typeError
    message := "'" ++ value.typeName ++ "' object is not iterable" }

/-- The key and the record of the asset in its bucket of `versions.json`. -/
def historyRecord (bucket : Fields) : Option (String × Fields) :=
  match resolveAssetKey runtime bucket rename.oldName with
  | none => none
  | some key =>
    match Json.get bucket key with
    | .dict record => some (key, record)
    | _ => none

/-- The record with the files of its versions renamed. -/
def renameRecord (record : Fields) : Fields :=
  match record.lookup "versions" with
  | some (.list versions) => Json.put record "versions"
      (.list (versions.map (renameVersion runtime rename)))
  | _ => record

/-- `rename_resource`: what there is to do, `none` if there is no record. -/
def renameResource (folders : List Place) (stored : Option Fields) :
    Except Raised (Option HistoryRename) :=
  let bucket := bucketOf (stored.getD []) rename.assetType
  match historyRecord runtime rename bucket with
  | none => .ok none
  | some (key, record) =>
    if (resolveAssetKey runtime bucket rename.newName).any (· ≠ key) then
      .error (historyCollision runtime rename)
    else
      match (Json.getOr record "versions" (.list [])).iterate with
      | none => .error (notIterable (Json.get record "versions"))
      | some versions =>
        let renamed := Json.put bucket key (.dict (renameRecord runtime rename record))
        .ok (some
          { count := versions.countP (fun version => (versionFile? version).isSome)
            moves := versions.filterMap (snapshotMove runtime rename folders)
            data := Json.put (stored.getD []) rename.assetType.spec.bucketKey
              (.dict (rekeyed runtime renamed rename.oldName rename.newName)) })

end History

/-! ## Claims of the artifact manifest -/

inductive ArtifactKey where
  | assetSheet (assetType : AssetType) (assetId : String)
  | other (encoded : String)
  deriving DecidableEq

structure ManifestEntry where
  artifactPath : String
  basisDigest : String
  deriving DecidableEq

abbrev Manifest := Dict ArtifactKey ManifestEntry

/-- How keys are written and which paths a claim may have. -/
structure ManifestCodec where
  encodeKey : ArtifactKey → String
  pathError : String → Option String

variable (runtime : Runtime) (codec : ManifestCodec)

/-- `ArtifactKey.asset_sheet`. -/
def assetSheetKey (assetType : AssetType) (assetId : String) : Except Raised ArtifactKey :=
  if assetId = "" then
    .error (valueError "asset_id must be a non-empty string")
  else if assetNameComparisonKey runtime assetId = "" then
    .error (valueError "artifact key components do not match 'asset-sheet'")
  else .ok (.assetSheet assetType (assetNameComparisonKey runtime assetId))

structure RekeyPlan where
  before : List (ArtifactKey × Option ManifestEntry)
  after : List (ArtifactKey × Option ManifestEntry)
  changed : Bool

def RekeyPlan.unchanged : RekeyPlan :=
  { before := []
    after := []
    changed := false }

def manifestError (message : String) : Raised :=
  { kind := .artifactManifest
    message := message }

/-- `normalize_artifact_path`, which returns what it accepts. -/
def checkArtifactPath (path : String) : Except Raised Unit :=
  match codec.pathError path with
  | some message => .error (valueError message)
  | none => .ok ()

/-- The claim with its path rewritten. -/
def rewriteClaim (rewrite : Option (String × String)) (entry : ManifestEntry) : ManifestEntry :=
  match rewrite with
  | some (source, target) =>
    if entry.artifactPath = source then
      { entry with artifactPath := target }
    else entry
  | none => entry

/-- The claim stays under its key with another path. -/
def RekeyPlan.inPlace (key : ArtifactKey) (entry replacement : ManifestEntry) : RekeyPlan :=
  { before := [(key, some entry)]
    after := [(key, some replacement)]
    changed := replacement ≠ entry }

/-- The claim goes from one key to another. -/
def RekeyPlan.moved (sourceKey targetKey : ArtifactKey)
    (entry replacement : ManifestEntry) : RekeyPlan :=
  { before := [(sourceKey, some entry), (targetKey, none)]
    after := [(sourceKey, none), (targetKey, some replacement)]
    changed := true }

def checkRewrite : Option (String × String) → Except Raised Unit
  | none => .ok ()
  | some (source, target) => do
      checkArtifactPath codec source
      checkArtifactPath codec target

/-- `plan_entry_rekey`; at most one path is rewritten. -/
def planEntryRekey (manifest : Manifest) (sourceKey targetKey : ArtifactKey)
    (rewrite : Option (String × String)) :
    Except Raised RekeyPlan := do
  checkRewrite codec rewrite
  if sourceKey = targetKey then
    match manifest.get? sourceKey with
    | none => .ok .unchanged
    | some entry => .ok (.inPlace sourceKey entry (rewriteClaim rewrite entry))
  else if (manifest.get? targetKey).isSome then
    .error (manifestError ("artifact claim already exists for target key: " ++
      codec.encodeKey targetKey))
  else
    match manifest.get? sourceKey with
    | none => .ok .unchanged
    | some entry => .ok (.moved sourceKey targetKey entry (rewriteClaim rewrite entry))

def putClaim (manifest : Manifest) (replacement : ArtifactKey × Option ManifestEntry) : Manifest :=
  match replacement.2 with
  | none => manifest.remove replacement.1
  | some entry => manifest.put replacement.1 entry

/-- What a file system may take two paths for. -/
def fileIdentity (path : String) : String :=
  runtime.casefold (runtime.nfc path)

/-- The first two claims with one file, as `_assert_unique_artifact_paths`
finds them. -/
def claimConflict (runtime : Runtime) (owners : List (ArtifactKey × ManifestEntry)) :
    List (ArtifactKey × ManifestEntry) →
      Option ((ArtifactKey × ManifestEntry) × (ArtifactKey × ManifestEntry))
  | [] => none
  | claim :: rest =>
    match owners.find? (fun owner =>
        fileIdentity runtime owner.2.artifactPath = fileIdentity runtime claim.2.artifactPath) with
    | some owner => some (owner, claim)
    | none => claimConflict runtime (owners ++ [claim]) rest

/-- The manifest after the replacements of a plan. -/
def RekeyPlan.replaced (plan : RekeyPlan) (manifest : Manifest) : Manifest :=
  plan.after.foldl putClaim manifest

/-- `ArtifactEntryRekeyPlan.commit` by one compare-and-swap. -/
def RekeyPlan.commit (plan : RekeyPlan) (manifest : Manifest) : Except Raised Manifest :=
  if !plan.changed then .ok manifest
  else if ∃ expected ∈ plan.before, manifest.get? expected.1 ≠ expected.2 then
    .error (manifestError "artifact claims changed after the rekey preflight")
  else
    match claimConflict runtime [] (plan.replaced manifest).rows with
    | some (owner, claim) => .error (manifestError
        ("formal artifact path is claimed by multiple keys: " ++
          claim.2.artifactPath ++ " (" ++ codec.encodeKey owner.1 ++ ", " ++
          codec.encodeKey claim.1 ++ ")"))
    | none => .ok (plan.replaced manifest)

end MatrixSpooll.Asset
