import MatrixSpooll.Library.Json
import MatrixSpooll.Library.Runtime

/-!
# Assets and their names

The four kinds of project assets, the coordinate system in which their names
are compared, and the checks a new name has to pass, as in `asset_types.py`.
-/

namespace MatrixSpooll.Asset

open Library

abbrev Fields := List (String × Json)

inductive ErrorKind where
  | valueError
  | typeError
  | attributeError
  | jsonDecodeError
  | projectAssetNameConflict
  | assetRenameNotFound
  | assetRenameConflict
  | assetRenameFileCollision
  | assetRenameHistoryCollision
  | scriptStructureValidation
  | artifactManifest
  deriving DecidableEq

/-- An exception with its message. -/
structure Raised where
  kind : ErrorKind
  message : String

def valueError (message : String) : Raised :=
  { kind := .valueError
    message := message }

/-- `value.get` of a value that is not an object. -/
def noAttributeGet (value : Json) : Raised :=
  { kind := .attributeError
    message := "'" ++ value.typeName ++ "' object has no attribute 'get'" }

inductive AssetType where
  | character
  | scene
  | prop
  | product
  deriving DecidableEq

structure AssetSpec where
  assetType : String
  bucketKey : String
  sheetField : String
  subdir : String
  labelZh : String
  referenceListFields : List String
  extraListFields : List String

def AssetType.spec : AssetType → AssetSpec
  | .character =>
    { assetType := "character"
      bucketKey := "characters"
      sheetField := "character_sheet"
      subdir := "characters"
      labelZh := "角色"
      referenceListFields := ["characters_in_segment", "characters_in_scene", "characters_in_shot"]
      extraListFields := [] }
  | .scene =>
    { assetType := "scene"
      bucketKey := "scenes"
      sheetField := "scene_sheet"
      subdir := "scenes"
      labelZh := "场景"
      referenceListFields := ["scenes"]
      extraListFields := [] }
  | .prop =>
    { assetType := "prop"
      bucketKey := "props"
      sheetField := "prop_sheet"
      subdir := "props"
      labelZh := "道具"
      referenceListFields := ["props"]
      extraListFields := [] }
  | .product =>
    { assetType := "product"
      bucketKey := "products"
      sheetField := "product_sheet"
      subdir := "products"
      labelZh := "产品"
      referenceListFields := ["products_in_shot"]
      extraListFields := ["reference_images", "selling_points"] }

/-- The asset types in the order of `namespace_priority`. -/
def assetTypes : List AssetType := [.character, .scene, .prop, .product]

/-- The value of a key as an object; any other value reads as an empty
one. -/
def objectOf (fields : Fields) (key : String) : Fields :=
  match Json.get fields key with
  | .dict object => object
  | _ => []

/-- The assets of one type. -/
def bucketOf (project : Fields) (assetType : AssetType) : Fields :=
  objectOf project assetType.spec.bucketKey

section Names

variable (runtime : Runtime)

def normalizeAssetName (name : String) : String := runtime.nfc name

def assetNameComparisonKey (name : String) : String :=
  normalizeAssetName runtime (String.ofList (strip name.toList))

theorem assetNameComparisonKey_eq (name : String) : assetNameComparisonKey runtime name =
      String.ofList (strip (normalizeAssetName runtime name).toList) :=
  runtime.nfc_strip name

theorem assetNameComparisonKey_normalize (name : String) :
    assetNameComparisonKey runtime (normalizeAssetName runtime name) =
      assetNameComparisonKey runtime name := by
  have again : normalizeAssetName runtime (normalizeAssetName runtime name) =
      normalizeAssetName runtime name := runtime.nfc_nfc name
  rw [assetNameComparisonKey_eq, assetNameComparisonKey_eq, again]

structure ProjectAssetNameMatch where
  assetType : AssetType
  name : String
  deriving DecidableEq

/-- The message of `ProjectAssetNameConflictError`. -/
def nameConflict (name : String) (existing : ProjectAssetNameMatch)
    (requested : AssetType) : Raised :=
  { kind := .projectAssetNameConflict
    message := "新增/改名后的" ++ requested.spec.labelZh ++ "名称 " ++ runtime.repr name ++ " 与项目内已有" ++
      existing.assetType.spec.labelZh ++ " " ++ runtime.repr existing.name ++
      " 冲突（按 strip + Unicode NFC、大小写敏感判定）" }

variable (bucket project : Fields)

/-- The names of all assets, by type and in the order of their buckets. -/
def projectAssetNames : List ProjectAssetNameMatch :=
  assetTypes.flatMap (fun assetType =>
    (bucketOf project assetType).map (fun entry =>
      { assetType := assetType
        name := entry.1 }))

/-- `ensure_project_asset_name_available` for a renaming: the asset itself is
left out. -/
def ensureProjectAssetNameAvailable (name : String) (assetType : AssetType)
    (excludeName : String) : Except Raised Unit :=
  let taken := (projectAssetNames project).find? (fun existing =>
    ¬(existing.assetType = assetType ∧ existing.name = excludeName) ∧
      assetNameComparisonKey runtime existing.name = assetNameComparisonKey runtime name)
  match taken with
  | some existing => .error (nameConflict runtime name existing assetType)
  | none => .ok ()

/-- The first conflict of `project_asset_name_conflicts`. -/
def firstNameConflict (earlier : List ProjectAssetNameMatch) : List ProjectAssetNameMatch →
      Option (ProjectAssetNameMatch × ProjectAssetNameMatch)
  | [] => none
  | current :: rest =>
    match earlier.find? (fun first =>
        assetNameComparisonKey runtime first.name =
          assetNameComparisonKey runtime current.name) with
    | some first => some (first, current)
    | none => firstNameConflict (earlier ++ [current]) rest

def ensureProjectAssetNamespace : Except Raised Unit :=
  match firstNameConflict runtime [] (projectAssetNames project) with
  | some (first, current) =>
    .error (nameConflict runtime current.name first current.assetType)
  | none => .ok ()

/-- `resolve_asset_key`: the last key that equals the name. -/
def resolveAssetKey (name : String) : Option String :=
  bucket.foldl (fun found entry =>
    if normalizeAssetName runtime entry.1 = normalizeAssetName runtime name
    then some entry.1 else found) none

/-- The keys that equal the old name become the new name; of entries that
come to share a key the last one stays. -/
def rekeyed (oldName newName : String) : Fields :=
  bucket.foldl (fun renamed entry =>
    Json.put renamed (if normalizeAssetName runtime entry.1 =
        normalizeAssetName runtime oldName then newName else entry.1)
      entry.2) []

/-- `rekey_equivalent_entries`: the bucket afterwards and the entry under the
new name; `none` if no key equals the old name. -/
def rekeyEquivalentEntries (oldName newName : String) : Option (Fields × Json) :=
  match resolveAssetKey runtime bucket oldName with
  | none => none
  | some _ =>
    let renamed := rekeyed runtime bucket oldName newName
    some (renamed, Json.get renamed newName)

def illegalAssetNameChars : List Char :=
  ['/', '\\', '\x00', ':', '*', '?', '"', '<', '>', '|', ']']

def windowsReservedBasenames : List Text :=
  (["CON", "PRN", "AUX", "NUL"].map String.toList) ++ (List.range 9).map (fun index =>
      "COM".toList ++ Nat.toDigits 10 (index + 1)) ++
    (List.range 9).map (fun index => "LPT".toList ++ Nat.toDigits 10 (index + 1))

/-- `validate_asset_name` of a text. -/
def validateAssetName (name : String) : Except Raised String :=
  let cleaned := normalizeAssetName runtime (String.ofList (strip name.toList))
  let chars := cleaned.toList
  if chars = [] then .error (valueError "资产名称不能为空或仅含空白字符")
  else if (cutAt "..".toList chars).isSome ∨ chars.any (fun char => char ∈ illegalAssetNameChars) ∨
      chars.any (fun char => char.toNat < 32 ∨ char.toNat = 127) then
    .error (valueError ("资产名称 " ++ runtime.repr cleaned ++ " 含非法字符：不允许路径分隔符（/ \\）、" ++
      "Windows 保留字符（: * ? \" < > |）、引用定界符（]）、控制字符或 .."))
  else if chars.getLast? = some '.' then
    .error (valueError ("资产名称 " ++ runtime.repr cleaned ++ " 不能以点结尾（Windows 文件名约束）"))
  else if upper (chars.takeWhile (· ≠ '.')) ∈ windowsReservedBasenames then
    .error (valueError ("资产名称 " ++ runtime.repr cleaned ++
      " 是 Windows 保留设备名（CON/PRN/AUX/NUL/COM1-9/LPT1-9）"))
  else .ok cleaned

end Names

/-! ## Keys after a renaming -/

section Keys

variable {runtime : Runtime}

theorem resolveAssetKey_eq_find? (bucket : Fields) (name : String) :
    resolveAssetKey runtime bucket name = (bucket.reverse.find?
      (fun entry => normalizeAssetName runtime entry.1 =
        normalizeAssetName runtime name)).map Prod.fst := by
  have accumulated : ∀ found, bucket.foldl (fun found entry =>
      if normalizeAssetName runtime entry.1 = normalizeAssetName runtime name
      then some entry.1 else found) found = ((bucket.reverse.find? (fun entry =>
          normalizeAssetName runtime entry.1 =
            normalizeAssetName runtime name)).map Prod.fst).or found := by
    induction bucket with
    | nil => simp
    | cons entry bucket induction =>
      intro found
      rw [List.foldl_cons, induction, List.reverse_cons, List.find?_append]
      by_cases same : normalizeAssetName runtime entry.1 = normalizeAssetName runtime name <;>
        cases bucket.reverse.find? _ <;> simp [same]
  exact (accumulated none).trans Option.or_none

variable {bucket : Fields} {name key : String}

theorem resolveAssetKey_eq_some (resolved : resolveAssetKey runtime bucket name = some key) :
    key ∈ bucket.map Prod.fst ∧
      normalizeAssetName runtime key = normalizeAssetName runtime name := by
  rw [resolveAssetKey_eq_find?, Option.map_eq_some_iff] at resolved
  obtain ⟨entry, found, rfl⟩ := resolved
  have member := List.mem_reverse.mp (List.mem_of_find?_eq_some found)
  have same := List.find?_some found
  exact ⟨List.mem_map_of_mem member, by simpa using same⟩

theorem resolveAssetKey_eq_none_iff : resolveAssetKey runtime bucket name = none ↔
      ∀ key ∈ bucket.map Prod.fst, normalizeAssetName runtime key ≠
        normalizeAssetName runtime name := by
  simp [resolveAssetKey_eq_find?]

theorem resolveAssetKey_isSome (member : key ∈ bucket.map Prod.fst)
    (same : normalizeAssetName runtime key = normalizeAssetName runtime name) :
    ∃ resolved, resolveAssetKey runtime bucket name = some resolved := by
  rw [← Option.ne_none_iff_exists', ne_eq, resolveAssetKey_eq_none_iff]
  intro different
  exact different key member same

/-- The key of an entry in the renamed bucket. -/
def renamedKey (runtime : Runtime) (oldName newName key : String) : String :=
  if normalizeAssetName runtime key = normalizeAssetName runtime oldName
  then newName else key

/-- Under a key of the renamed bucket is the last entry that comes to have
it. -/
theorem lookup_rekeyed (bucket : Fields) (oldName newName key : String) :
    (rekeyed runtime bucket oldName newName).lookup key = (bucket.reverse.find? (fun entry =>
        renamedKey runtime oldName newName entry.1 = key)).map Prod.snd := by
  have accumulated : ∀ renamed : Fields, (bucket.foldl (fun renamed entry => Json.put renamed
        (renamedKey runtime oldName newName entry.1) entry.2) renamed).lookup key =
        ((bucket.reverse.find? (fun entry =>
          renamedKey runtime oldName newName entry.1 = key)).map
            Prod.snd).or (renamed.lookup key) := by
    induction bucket with
    | nil => simp
    | cons entry bucket induction =>
      intro renamed
      rw [List.foldl_cons, induction, List.reverse_cons, List.find?_append, Json.lookup_put]
      by_cases same : renamedKey runtime oldName newName entry.1 = key
      · cases bucket.reverse.find? _ <;> simp [same]
      · cases bucket.reverse.find? _ <;> simp [same, Ne.symm same]
  exact (accumulated []).trans Option.or_none

theorem mem_keys_rekeyed {oldName newName : String}
    (member : key ∈ (rekeyed runtime bucket oldName newName).map Prod.fst) :
    ∃ entry ∈ bucket, renamedKey runtime oldName newName entry.1 = key := by
  rw [Json.mem_keys_iff, lookup_rekeyed, Option.isSome_map, List.find?_isSome] at member
  obtain ⟨entry, listed, isKey⟩ := member
  exact ⟨entry, List.mem_reverse.mp listed, by simpa using isKey⟩

theorem resolveAssetKey_rekeyed_old {oldName newName : String}
    (differ : normalizeAssetName runtime newName ≠ normalizeAssetName runtime oldName) :
    resolveAssetKey runtime (rekeyed runtime bucket oldName newName) oldName = none := by
  rw [resolveAssetKey_eq_none_iff]
  intro key member
  obtain ⟨entry, _, isKey⟩ := mem_keys_rekeyed member
  unfold renamedKey at isKey
  split at isKey
  case isTrue => exact isKey ▸ differ
  case isFalse other => exact isKey ▸ other

end Keys

end MatrixSpooll.Asset
