import MatrixSpooll.Asset.Names
import MatrixSpooll.Library.Moves

/-!
# The files of an asset

Files are named after their asset.  Which path fields of an entry are
rewritten and which files are moved is decided by `renamed_file_stem`, as in
`asset_rename.py`.
-/

namespace MatrixSpooll.Asset

open Library

/-- The place of a file: the directories from the project down and its
name. -/
abbrev Place := List String

/-- The place a path leads to from a directory; `folders` are the directories
of the project. -/
def locateFrom (folders : List Place) (current : Place) : List String → Option Place
  | [] => none
  | [name] => if name = ".." then none else some (current ++ [name])
  | part :: rest =>
    if part = ".." then
      if current = [] then none
      else locateFrom folders current.dropLast rest
    else if current ++ [part] ∈ folders then
      locateFrom folders (current ++ [part]) rest
    else none

/-- `project_dir / text`, if that is a place inside the project. -/
def locate (folders : List Place) (text : String) : Option Place :=
  if isAbsolutePath text then none
  else locateFrom folders [] (pathParts text)

structure AssetRename where
  assetType : AssetType
  oldName : String
  newName : String

section Paths

variable (runtime : Runtime) (rename : AssetRename)

def renamedFileStem (stem : String) (allowSequence : Bool) : Option String :=
  let normalized := normalizeAssetName runtime stem
  let target := normalizeAssetName runtime rename.oldName
  if normalized = target then some rename.newName
  else if allowSequence then
    match normalized.toList.dropPrefix? (target ++ "_").toList with
    | none => none
    | some digits =>
      if digits ≠ [] ∧ digits.all runtime.isDigit then
        some (rename.newName ++ "_" ++ String.ofList digits)
      else none
  else none

def renamedFileName (name : String) (allowSequence : Bool) : Option String :=
  (renamedFileStem runtime rename (fileStem name) allowSequence).map
    (fun stem => stem ++ fileSuffix name)

/-- `"reference_images" in spec.extra_list_fields`. -/
def sequencedRefs (assetType : AssetType) : Bool :=
  assetType.spec.extraListFields.contains "reference_images"

/-- The directories that are scanned, with whether sequences count. -/
def migratedDirs (assetType : AssetType) : List (Place × Bool) :=
  let base := assetType.spec.subdir
  [([base], false), ([base, "refs"], sequencedRefs assetType), ([base, "refs_audio"], false)]

/-- `rewrite` in `rewrite_entry_paths`. -/
def rewritePath (value : String) (sequencedField : Bool) : Option String :=
  let parts := pathParts (slashed value)
  let parent := parts.dropLast
  let base := rename.assetType.spec.subdir
  if isAbsolutePath (slashed value) ∨
      parent ∉ (migratedDirs rename.assetType).map Prod.fst then none
  else
    let allowSequence := sequencedField && sequencedRefs rename.assetType && parent = [base, "refs"]
    match parts.getLast? with
    | none => none
    | some name =>
      match renamedFileName runtime rename name allowSequence with
      | none => none
      | some renamed =>
        let path := pathText (parent ++ [renamed])
        if path = value then none else some path

/-- A path field with a text in it, and whether it was rewritten. -/
def rewriteValue (sequencedField : Bool) : Json → Json × Nat
  | .str value =>
    if value = "" then (.str value, 0)
    else
      match rewritePath runtime rename value sequencedField with
      | some renamed => (.str renamed, 1)
      | none => (.str value, 0)
  | value => (value, 0)

/-- `entry[field]` rewritten if it is there. -/
def rewriteField (entry : Fields) (field : String) : Fields × Nat :=
  match entry.lookup field with
  | none => (entry, 0)
  | some value =>
    let rewritten := rewriteValue runtime rename false value
    (Json.put entry field rewritten.1, rewritten.2)

def rewriteImages (entry : Fields) : Fields × Nat :=
  match entry.lookup "reference_images" with
  | some (.list images) =>
    let rewritten := images.map (rewriteValue runtime rename true)
    (Json.put entry "reference_images" (.list (rewritten.map Prod.fst)),
      (rewritten.map Prod.snd).sum)
  | _ => (entry, 0)

def rewriteEntryPaths (entry : Fields) : Fields × Nat :=
  let sheet := rewriteField runtime rename entry rename.assetType.spec.sheetField
  let image := rewriteField runtime rename sheet.1 "reference_image"
  let audio := rewriteField runtime rename image.1 "reference_audio"
  let images := rewriteImages runtime rename audio.1
  (images.1, sheet.2 + image.2 + audio.2 + images.2)

/-- An entry that is an object has its path fields rewritten. -/
def rewriteEntry : Json → Json × Nat
  | .dict entry =>
    let rewritten := rewriteEntryPaths runtime rename entry
    (.dict rewritten.1, rewritten.2)
  | entry => (entry, 0)

/-! ## Planning the moves -/

variable {Bytes : Type}

/-- `(file, destination)` for a file of the directory that has to move. -/
def moveOf (directory : Place × Bool) (place : Place) : Option (Place × Place) :=
  match place.getLast? with
  | none => none
  | some name =>
    if place.dropLast = directory.1 then
      match renamedFileStem runtime rename (fileStem name) directory.2 with
      | none => none
      | some stem =>
        if fileStem name = stem then none
        else some (place, directory.1 ++ [stem ++ fileSuffix name])
    else none

/-- The files of the scanned directories that have to move, in the order of
the scan. -/
def matchingMoves (files : Listing Place Bytes) : List (Place × Place) :=
  (migratedDirs rename.assetType).flatMap (fun directory =>
    files.entries.filterMap (fun entry => moveOf runtime rename directory entry.1))

def fileCollision (destination : Place) : Raised :=
  { kind := .assetRenameFileCollision
    message := "迁移目标文件已存在: " ++ pathText destination ++ "，请先移除该文件或换一个名字" }

/-- The checks of each planned move: its destination is neither planned nor
there. -/
def checkMoves (present : Place → Bool) (planned : List Place) :
    List (Place × Place) → Except Raised Unit
  | [] => .ok ()
  | move :: rest =>
    if move.2 ∈ planned ∨ present move.2 then
      .error (fileCollision move.2)
    else checkMoves present (planned ++ [move.2]) rest

/-- `plan_asset_file_renames`; `folders` are the directories of the
project. -/
def planAssetFileRenames (files : Listing Place Bytes)
    (folders : List Place) : Except Raised (List (Place × Place)) :=
  let moves := matchingMoves runtime rename files
  (checkMoves (fun place => (files.get? place).isSome ||
      folders.contains place) [] moves).map (fun _ => moves)

end Paths

end MatrixSpooll.Asset
