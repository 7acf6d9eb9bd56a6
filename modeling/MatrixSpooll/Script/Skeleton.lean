import MatrixSpooll.Library.Dict
import MatrixSpooll.Library.Json

/-!
# Skeletons of an episode script

A script keeps its items under one of four keys.  Which one is read off the
keys that are present and the content mode; each kind names its items by a
field of its own.
-/

namespace MatrixSpooll.Script

open Library

abbrev Fields := List (String × Json)

/-- A script as `json.load` gives it. -/
abbrev EpisodeScript := Dict String Json

/-- What the code uses of the built-in conversions. -/
structure Runtime where
  str : Json → String
  str_text : ∀ text, str (.str text) = text
  repr : String → String
  equal : Json → Json → Bool
  isDecimal : String → Bool
  parseInt : String → Int

inductive SkeletonKind where
  | segments
  | scenes
  | shots
  | videoUnits
deriving DecidableEq

namespace SkeletonKind

/-- The key of the items in the script. -/
def itemsKey : SkeletonKind → String
  | .segments => "segments"
  | .scenes => "scenes"
  | .shots => "shots"
  | .videoUnits => "video_units"

def idField : SkeletonKind → String
  | .segments => "segment_id"
  | .scenes => "scene_id"
  | .shots => "shot_id"
  | .videoUnits => "unit_id"

end SkeletonKind

namespace EpisodeScript

def has (script : EpisodeScript) (key : String) : Bool :=
  (script.get? key).isSome

def value (script : EpisodeScript) (key : String) : Json :=
  (script.get? key).getD .null

end EpisodeScript

variable (script : EpisodeScript)

def resolveScriptKind : SkeletonKind :=
  let has := EpisodeScript.has script
  if has "video_units" && !(has "segments" || has "scenes" || has "shots")
  then .videoUnits
  else
    let byKeys : SkeletonKind :=
      if has "scenes" && !has "segments" then .scenes
      else if has "shots" && !has "segments" then .shots
      else .segments
    match EpisodeScript.value script "content_mode" with
    | .str "ad" => .shots
    | .str "drama" => .scenes
    | .str "narration" => if !has "segments" && has "scenes" then .scenes else .segments
    | _ => byKeys

/-- A part of the path to a field. -/
inductive PathPart where
  | name (text : String)
  | index (value : Int)
deriving DecidableEq

/-- A refused edit: its text, the kind whose items are no list, and the place
in the operation that is to blame. -/
structure ScriptEditError where
  message : String
  kind : Option String := none
  location : Option (List PathPart) := none

/-- The items of a script; a missing key gives an empty list that is not part
of the script. -/
def resolveItems : Except ScriptEditError (List Json × SkeletonKind) :=
  let kind := resolveScriptKind script
  match script.get? kind.itemsKey with
  | none => .ok ([], kind)
  | some (.list items) => .ok (items, kind)
  | some other => .error
      { message := kind.itemsKey ++ " 必须是列表，当前为 " ++ other.typeName
        kind := some kind.itemsKey }

variable (kind : SkeletonKind) (items : List Json)

/-- What is left in the script of a list that was changed in place. -/
def storeItems : EpisodeScript :=
  if EpisodeScript.has script kind.itemsKey then
    script.put kind.itemsKey (.list items)
  else script

/-- The id an item goes by; an entry that is no object has none. -/
def itemId? (runtime : Runtime) (idField : String) : Json → Option String
  | .dict fields => some (runtime.str (Json.get fields idField))
  | _ => none

def findIndex (runtime : Runtime) (items : List Json) (idField : String)
    (itemId : String) : Option Nat :=
  items.findIdx? (fun item => itemId? runtime idField item = some itemId)

/-- The object at a place. -/
def fieldsAt (index : Nat) : Fields :=
  match items[index]? with
  | some (.dict fields) => fields
  | _ => []

/-- `path.split(".")`. -/
def dotParts (path : String) : List String :=
  (path.toList.splitOn '.').map String.ofList

/-! ## Items after a change -/

theorem has_storeItems (key : String) : EpisodeScript.has (storeItems script kind items) key =
      EpisodeScript.has script key := by
  unfold storeItems
  split
  · rename_i present
    unfold EpisodeScript.has at present ⊢
    rw [Dict.get?_put]
    split
    · rename_i same
      rw [same, present]
      rfl
    · rfl
  · rfl

theorem resolveScriptKind_storeItems : resolveScriptKind (storeItems script kind items) =
      resolveScriptKind script := by
  have mode : EpisodeScript.value (storeItems script kind items)
      "content_mode" = EpisodeScript.value script "content_mode" := by
    unfold storeItems
    split
    · unfold EpisodeScript.value
      rw [Dict.get?_put, if_neg]
      cases kind <;> decide
    · rfl
  unfold resolveScriptKind
  simp only [has_storeItems, mode]

variable {script : EpisodeScript} {items : List Json} {kind : SkeletonKind}

section

variable (resolved : resolveItems script = .ok (items, kind))
include resolved

theorem resolveItems_kind : kind = resolveScriptKind script := by
  unfold resolveItems at resolved
  simp only at resolved
  split at resolved <;> cases resolved
  · rfl
  · rfl

/-- Items stored are the items found next, unless there was no list to store
them in. -/
theorem resolveItems_storeItems (changed : List Json) :
    resolveItems (storeItems script kind changed) = .ok
      (if EpisodeScript.has script kind.itemsKey then changed else [], kind) := by
  have isKind := resolveItems_kind resolved
  subst isKind
  unfold resolveItems
  simp only [resolveScriptKind_storeItems]
  unfold storeItems
  by_cases present : EpisodeScript.has script (resolveScriptKind script).itemsKey = true
  · simp only [if_pos present, Dict.get?_put, if_true]
  · have missing : script.get? (resolveScriptKind script).itemsKey = none := by
      unfold EpisodeScript.has at present
      rw [Option.isSome_iff_ne_none, not_not] at present
      exact present
    simp only [if_neg present, missing]

theorem resolveItems_missing (missing : EpisodeScript.has script kind.itemsKey = false) :
    items = [] := by
  have isKind := resolveItems_kind resolved
  subst isKind
  unfold EpisodeScript.has at missing
  rw [Option.isSome_eq_false_iff, Option.isNone_iff_eq_none] at missing
  unfold resolveItems at resolved
  simp only [missing] at resolved
  cases resolved
  rfl

end

theorem findIndex_found {runtime : Runtime} {idField itemId : String} {index : Nat}
    (found : findIndex runtime items idField itemId = some index) :
    ∃ fields, items[index]? = some (.dict fields) ∧ fieldsAt items index = fields ∧
      runtime.str (Json.get fields idField) = itemId := by
  unfold findIndex at found
  obtain ⟨inside, matching, _⟩ := List.findIdx?_eq_some_iff_getElem.mp found
  have isItem : items[index]? = some items[index] := List.getElem?_eq_getElem inside
  have isId := of_decide_eq_true matching
  cases entry : items[index] with
  | dict fields =>
    rw [entry] at isItem isId
    refine ⟨fields, isItem, ?_, Option.some.inj isId⟩
    unfold fieldsAt
    rw [isItem]
  | _ =>
    rw [entry] at isId
    cases isId

end MatrixSpooll.Script
