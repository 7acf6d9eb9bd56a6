import MatrixSpooll.Library.Dict
import Mathlib.Data.Finset.Union
import Mathlib.Data.List.Sort
import Mathlib.Data.String.Basic

/-!
# The shared canvas

The canvas of a free-creation project and its two writers: patches, which
merge changes of single entities and check a revision for each of them, and
saves, which replace the canvas and check one revision for all.
-/

namespace MatrixSpooll.FreeCreation

open Library

variable {Coordinate : Type}

structure Position (Coordinate : Type) where
  x : Coordinate
  y : Coordinate
  deriving DecidableEq

structure Viewport (Coordinate : Type) where
  x : Coordinate
  y : Coordinate
  scale : Coordinate
  deriving DecidableEq

structure CanvasGroup where
  groupId : String
  memberIds : List String
  deriving DecidableEq

/-- What a patch does to the canvas. -/
structure Changes (Coordinate : Type) where
  positionUpdates : Dict String (Position Coordinate)
  hiddenCreationUpdates : Dict String Bool
  hiddenReferenceUpdates : Dict String Bool
  groupUpserts : List CanvasGroup
  groupDeletes : List String
  showRelations : Option Bool

structure CanvasPatch (Coordinate : Type) where
  patchId : String
  baseRevision : Int
  targetRevisions : Dict String Int
  changes : Changes Coordinate

structure LastPatch (Coordinate : Type) where
  patchId : String
  actorId : String
  baseRevision : Int
  revision : Nat
  changes : Changes Coordinate

/-- The sorted lists of hidden identifiers are sets. -/
structure Canvas (Coordinate : Type) where
  revision : Nat
  viewport : Viewport Coordinate
  positions : Dict String (Position Coordinate)
  hiddenCreationIds : Finset String
  hiddenReferenceIds : Finset String
  groups : List CanvasGroup
  showRelations : Bool
  nodeRevisions : Dict String Nat
  recentPatchIds : List String
  lastPatch : Option (LastPatch Coordinate)
  updatedAt : Option String

def defaultCanvasState (viewport : Viewport Coordinate) : Canvas Coordinate :=
  { revision := 0
    viewport := viewport
    positions := .empty
    hiddenCreationIds := ∅
    hiddenReferenceIds := ∅
    groups := []
    showRelations := true
    nodeRevisions := .empty
    recentPatchIds := []
    lastPatch := none
    updatedAt := none }

def relationsTarget : String := "canvas:relations"

def recentPatchLimit : Nat := 200

namespace Canvas

/-- `node_revisions.get(target, 0)`. -/
def nodeRevision (canvas : Canvas Coordinate) (target : String) : Nat :=
  (canvas.nodeRevisions.get? target).getD 0

end Canvas

/-! ## Patches -/

def keys {Value : Type} (dict : Dict String Value) : Finset String :=
  (dict.rows.map Prod.fst).toFinset

/-- `_patch_targets`. -/
def Changes.targets (changes : Changes Coordinate) : Finset String :=
  keys changes.positionUpdates ∪ keys changes.hiddenCreationUpdates ∪
    keys changes.hiddenReferenceUpdates ∪
    (changes.groupUpserts.map CanvasGroup.groupId).toFinset ∪
    changes.groupDeletes.toFinset ∪
    (if changes.showRelations.isSome then {relationsTarget} else ∅)

/-- `dict.update`. -/
def updateWith {Value : Type} (dict updates : Dict String Value) : Dict String Value :=
  updates.rows.foldl (fun merged row => merged.put row.1 row.2) dict

/-- Add what is to be hidden and discard what is not. -/
def updateHidden (hidden : Finset String) (updates : Dict String Bool) : Finset String :=
  updates.rows.foldl (fun hidden row =>
    if row.2 then insert row.1 hidden else hidden.erase row.1) hidden

/-- The groups by identifier; the last one counts, without repeated
members. -/
def groupTable (groups : List CanvasGroup) (table : Dict String (List String)) :
    Dict String (List String) :=
  groups.foldl (fun table group => table.put group.groupId group.memberIds.eraseDups) table

def dropGroups (deletes : List String) (table : Dict String (List String)) :
    Dict String (List String) :=
  deletes.foldl (fun table groupId => table.remove groupId) table

/-- The groups in the order of their identifiers. -/
def sortedGroups (table : Dict String (List String)) : List CanvasGroup :=
  (table.rows.map (fun row => CanvasGroup.mk row.1 row.2)).insertionSort
    (fun first second => first.groupId ≤ second.groupId)

/-- Every group has two members, and no member is in two groups. -/
def uniqueMembers : List CanvasGroup → Finset String → Bool
  | [], _ => true
  | group :: rest, members =>
    2 ≤ group.memberIds.length && group.memberIds.all (fun member => member ∉ members) &&
      uniqueMembers rest (members ∪ group.memberIds.toFinset)

/-- `_apply_groups`; `none` is the `ValueError`. -/
def applyGroups (groups upserts : List CanvasGroup) (deletes : List String) :
    Option (List CanvasGroup) :=
  let result := sortedGroups (groupTable upserts (dropGroups deletes (groupTable groups .empty)))
  if uniqueMembers result ∅ then some result else none

/-- How a patch is refused. -/
inductive PatchFailure where
  | value (text : String)
  | conflict (conflictIds : Finset String)
  deriving DecidableEq

inductive PatchResult (Coordinate : Type) where
  | duplicate
  | merged (canvas : Canvas Coordinate)

namespace Canvas

variable (canvas : Canvas Coordinate) (patch : CanvasPatch Coordinate)

/-- Each target gets the next revision. -/
def renew (targets : List String) : Dict String Nat :=
  targets.foldl (fun revisions target =>
    revisions.put target (canvas.revision + 1)) canvas.nodeRevisions

/-- The targets that are not at the revision the caller has seen. -/
def conflictIds : Finset String :=
  patch.changes.targets.filter (fun target =>
    patch.targetRevisions.get? target ≠ some (canvas.nodeRevision target))

/-- The canvas with the changes of a patch. -/
def merge (groups : List CanvasGroup) (actorId now : String) : Canvas Coordinate :=
  { canvas with
    revision := canvas.revision + 1
    positions := updateWith canvas.positions patch.changes.positionUpdates
    hiddenCreationIds :=
      updateHidden canvas.hiddenCreationIds patch.changes.hiddenCreationUpdates
    hiddenReferenceIds :=
      updateHidden canvas.hiddenReferenceIds patch.changes.hiddenReferenceUpdates
    groups := groups
    showRelations := patch.changes.showRelations.getD canvas.showRelations
    -- The keys of the expected revisions are the targets, in some order.
    nodeRevisions := canvas.renew (patch.targetRevisions.rows.map Prod.fst)
    recentPatchIds :=
      (canvas.recentPatchIds ++ [patch.patchId]).drop
        (canvas.recentPatchIds.length + 1 - recentPatchLimit)
    lastPatch := some
      { patchId := patch.patchId
        actorId := actorId
        baseRevision := patch.baseRevision
        revision := canvas.revision + 1
        changes := patch.changes }
    updatedAt := some now }

/-- `apply_canvas_patch`, under the metadata lock. -/
def applyCanvasPatch (actorId now : String) : Except PatchFailure (PatchResult Coordinate) :=
  if patch.patchId = "" then
    .error (.value "canvas patch id is required")
  else if patch.patchId ∈ canvas.recentPatchIds then .ok .duplicate
  else if (canvas.revision : Int) < patch.baseRevision then
    .error (.conflict {"canvas:revision"})
  else if patch.changes.targets ≠ keys patch.targetRevisions then
    .error (.value "canvas patch target revisions must exactly match its operations")
  else if canvas.conflictIds patch ≠ ∅ then
    .error (.conflict (canvas.conflictIds patch))
  else
    match applyGroups canvas.groups patch.changes.groupUpserts patch.changes.groupDeletes with
    | none => .error (.value "canvas groups must contain unique members")
    | some groups => .ok (.merged (canvas.merge patch groups actorId now))

end Canvas

/-! ## Saves -/

structure CanvasSave (Coordinate : Type) where
  viewport : Viewport Coordinate
  positions : Dict String (Position Coordinate)
  hiddenCreationIds : List String
  hiddenReferenceIds : Option (List String)
  groups : Option (List CanvasGroup)
  showRelations : Bool
  expectedRevision : Option Int
  persistViewport : Bool

/-- Two dictionaries have the same entries. -/
def sameEntries {Value : Type} [DecidableEq Value] (first second : Dict String Value) : Bool :=
  first.rows.all (fun row => second.get? row.1 = some row.2) &&
    second.rows.all (fun row => first.get? row.1 = some row.2)

namespace Canvas

/-- The canvas with the values of a save. -/
def replace (canvas : Canvas Coordinate) (save : CanvasSave Coordinate)
    (now : String) : Canvas Coordinate :=
  { canvas with
    revision := canvas.revision + 1
    viewport := if save.persistViewport then save.viewport
      else canvas.viewport
    positions := save.positions
    hiddenCreationIds := save.hiddenCreationIds.toFinset
    hiddenReferenceIds := (save.hiddenReferenceIds.getD []).toFinset
    groups := save.groups.getD []
    showRelations := save.showRelations
    updatedAt := some now }

/-- A save would change nothing. -/
def isSaved [DecidableEq Coordinate] (canvas : Canvas Coordinate)
    (save : CanvasSave Coordinate) : Bool :=
  (!save.persistViewport || canvas.viewport = save.viewport) &&
    sameEntries canvas.positions save.positions &&
    canvas.hiddenCreationIds = save.hiddenCreationIds.toFinset &&
    canvas.hiddenReferenceIds = (save.hiddenReferenceIds.getD []).toFinset &&
    canvas.groups = save.groups.getD [] &&
    canvas.showRelations = save.showRelations

/-- `save_canvas_state`, under the metadata lock. -/
def saveCanvasState [DecidableEq Coordinate] (canvas : Canvas Coordinate)
    (save : CanvasSave Coordinate) (now : String) :
    Except String (Canvas Coordinate) :=
  if save.expectedRevision.any (fun expected => expected ≠ (canvas.revision : Int)) then
    .error "free creation canvas revision conflict"
  else if canvas.isSaved save then .ok canvas
  else .ok (canvas.replace save now)

end Canvas

/-! ## Calls on one project -/

inductive CanvasCall (Coordinate : Type) where
  | patch (patch : CanvasPatch Coordinate) (actorId now : String)
  | save (save : CanvasSave Coordinate) (now : String)

/-- The stored canvas after a call; a call that is refused writes nothing. -/
def Canvas.afterCall [DecidableEq Coordinate] (canvas : Canvas Coordinate) :
    CanvasCall Coordinate → Canvas Coordinate
  | .patch patch actorId now =>
    match canvas.applyCanvasPatch patch actorId now with
    | .ok (.merged merged) => merged
    | _ => canvas
  | .save save now =>
    match canvas.saveCanvasState save now with
    | .ok saved => saved
    | .error _ => canvas

end MatrixSpooll.FreeCreation
