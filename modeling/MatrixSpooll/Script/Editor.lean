import MatrixSpooll.Library.Checked
import MatrixSpooll.Script.Skeleton

/-!
# The editing core

Pure edits of a script: set a field of an item, insert an item behind another,
remove one, or split one.  Generated assets and end frames are out of reach of
a field edit; new items begin without them, and the first part of a split item
keeps what the item had.
-/

namespace MatrixSpooll.Script

open Library Json

def idFieldNames : List String :=
  ["segment_id", "scene_id", "unit_id", "shot_id"]

variable (runtime : Runtime) (fields : Fields) (script : EpisodeScript) (idField itemId : String)

def notFoundError : ScriptEditError :=
  { message := "未找到 id=" ++ runtime.repr itemId ++ " 的分镜（" ++ idField ++ "）" }

def existingIds (items : List Json) (idField : String) : List String :=
  items.filterMap (itemId? runtime idField)

def suffixedId (stem : String) (number : Nat) : String :=
  stem ++ "_" ++ toString number

/-- The search for a free number; `fuel` bounds its turns. -/
def firstFree (stem : String) (taken : List String) : Nat → Nat → String
  | 0, number => suffixedId stem number
  | fuel + 1, number =>
    if suffixedId stem number ∈ taken then
      firstFree stem taken fuel (number + 1)
    else suffixedId stem number

def nextSuffixedId (base : String) (taken : List String) : String :=
  let stem := String.ofList (base.toList.takeWhile (fun char => char ≠ '_'))
  firstFree stem taken taken.length 1

/-- Walk down the parents of a field and set it; parents must be there. -/
def setPath (runtime : Runtime) (fieldPath : String) (value : Json) :
    List String → Fields → Except ScriptEditError Fields
  | [], fields => .ok fields
  | [last], fields => .ok (put fields last value)
  | part :: next :: rest, fields =>
    match fields.lookup part with
    | none => .error
        { message := "字段路径不存在: " ++ runtime.repr fieldPath }
    | some (.dict inner) => do
        let changed ← setPath runtime fieldPath value (next :: rest) inner
        return put fields part (.dict changed)
    | some other => .error
        { message := "父节点非对象 (键 " ++ runtime.repr part ++ " 类型为 " ++
            other.typeName ++ "): " ++ runtime.repr fieldPath }

/-- Fields an edit may not set. -/
def protectedFieldError (root : String) : Option ScriptEditError :=
  if root = "generated_assets" then some
    { message := "patch_episode_script 不可改 generated_assets；" ++ "资产的生成/重生是独立的显式动作" }
  else if root = "needs_replan" ∨ root = "migration_requires_content_replan"
  then some
    { message := "patch_episode_script 不可直接改重规划标记；" ++ "修改 unit 规划内容后由系统重算" }
  else if root = "end_frame_image" then some
    { message := "patch_episode_script 不可改 end_frame_image；" ++ "尾帧的设置/清除是独立的显式动作" }
  else if root ∈ idFieldNames then some
    { message := "patch_episode_script 不可改分镜 id 字段 (" ++ root ++ ")；id 由 insert/split 派生，不允许直接修改" }
  else none

def setNested (fieldPath : String) (value : Json) : Except ScriptEditError Fields := do
  let parts := dotParts fieldPath
  require (parts.all (fun part => part ≠ ""))
    { message := "非法字段路径: " ++ runtime.repr fieldPath }
  match parts.head?.bind protectedFieldError with
  | some refused => .error refused
  | none => setPath runtime fieldPath value parts fields

def patchField (fieldPath : String) (value : Json) : Except ScriptEditError EpisodeScript := do
  let (items, kind) ← resolveItems script
  match findIndex runtime items kind.idField itemId with
  | none => .error (notFoundError runtime kind.idField itemId)
  | some index =>
    let changed ← setNested runtime (fieldsAt items index) fieldPath value
    return storeItems script kind (items.set index (.dict changed))

/-- An item under an id that had none before. -/
def withoutAssets : Fields :=
  pop (put (put fields idField (.str itemId)) "generated_assets" (.dict [])) "end_frame_image"

def insertSegment (afterId : String) (newItem : Json) : Except ScriptEditError EpisodeScript := do
  match newItem with
  | .dict fields =>
    let (items, kind) ← resolveItems script
    match findIndex runtime items kind.idField afterId with
    | none => .error (notFoundError runtime kind.idField afterId)
    | some index =>
      let newId := nextSuffixedId afterId (existingIds runtime items kind.idField)
      return storeItems script kind (items.insertIdx (index + 1)
        (.dict (withoutAssets fields kind.idField newId)))
  | _ => .error { message := "new_item 必须是对象" }

def removeSegment : Except ScriptEditError EpisodeScript := do
  let (items, kind) ← resolveItems script
  match findIndex runtime items kind.idField itemId with
  | none => .error (notFoundError runtime kind.idField itemId)
  | some index => return storeItems script kind (items.eraseIdx index)

/-- Generated assets that are no object count as none. -/
def normalAssets : Json :=
  match get fields "generated_assets" with
  | .dict assets => .dict assets
  | _ => .dict []

/-- Give an item the assets and the end frame of another. -/
def withAssetsOf (owner fields : Fields) : Fields :=
  let supplied := put fields "generated_assets" (normalAssets owner)
  match get owner "end_frame_image" with
  | .null => pop supplied "end_frame_image"
  | frame => put supplied "end_frame_image" frame

/-- The parts behind the first, each under the next free id. -/
def furtherParts (idField itemId : String) : List String → List Fields → List Fields
  | _, [] => []
  | taken, part :: rest =>
    let newId := nextSuffixedId itemId taken
    withoutAssets part idField newId :: furtherParts idField itemId (newId :: taken) rest

def asObject? : Json → Option Fields
  | .dict fields => some fields
  | _ => none

def splitSegment (parts : List Json) : Except ScriptEditError EpisodeScript := do
  require (2 ≤ parts.length)
    { message := "split 至少需要 2 个部分" : ScriptEditError }
  match parts.mapM asObject? with
  | none => .error { message := "split 的每个部分必须是对象" }
  | some [] => return script
  | some (first :: further) =>
    let (items, kind) ← resolveItems script
    match findIndex runtime items kind.idField itemId with
    | none => .error (notFoundError runtime kind.idField itemId)
    | some index =>
      let anchor := withAssetsOf (fieldsAt items index) (put first kind.idField (.str itemId))
      let others := furtherParts kind.idField itemId
        (existingIds runtime items kind.idField) further
      return storeItems script kind (items.take index ++
        (anchor :: others).map dict ++ items.drop (index + 1))

end MatrixSpooll.Script
