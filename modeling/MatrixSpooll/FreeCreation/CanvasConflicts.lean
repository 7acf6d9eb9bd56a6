import MatrixSpooll.FreeCreation.Canvas
import MatrixSpooll.Library.Stamp
import Mathlib.Data.Fintype.Basic

/-!
# Stale patches

A patch gives a new revision to every entity it targets, so that the revision
of an entity tells whether a patch has changed it.  A save gives none.  A
patch that is accepted has seen the stored values of its targets where no save
has changed them since.
-/

namespace MatrixSpooll.FreeCreation

open Library CanvasGroup List

variable {Coordinate : Type}

/-- What is stored for an identifier. -/
structure EntityValue (Coordinate : Type) where
  position : Option (Position Coordinate)
  hiddenCreation : Bool
  hiddenReference : Bool
  members : Option (Finset String)
  relations : Option Bool
  deriving DecidableEq

/-- The members of a group, as the groups are read. -/
def membersOf (groups : List CanvasGroup) (target : String) : Option (Finset String) :=
  ((groupTable groups .empty).get? target).map toFinset

def relationsOf (showRelations : Bool) (target : String) : Option Bool :=
  if target = relationsTarget then some showRelations else none

def Canvas.value (canvas : Canvas Coordinate) (target : String) : EntityValue Coordinate :=
  { position := canvas.positions.get? target
    hiddenCreation := target ∈ canvas.hiddenCreationIds
    hiddenReference := target ∈ canvas.hiddenReferenceIds
    members := membersOf canvas.groups target
    relations := relationsOf canvas.showRelations target }

/-- What a save brings for an identifier. -/
def CanvasSave.value (save : CanvasSave Coordinate) (target : String) : EntityValue Coordinate :=
  { position := save.positions.get? target
    hiddenCreation := target ∈ save.hiddenCreationIds.toFinset
    hiddenReference := target ∈ (save.hiddenReferenceIds.getD []).toFinset
    members := membersOf (save.groups.getD []) target
    relations := relationsOf save.showRelations target }

/-- A save brings the stored values of the targets. -/
def Spares (targets : Finset String) (canvas : Canvas Coordinate) : CanvasCall Coordinate → Prop
  | .patch _ _ _ => True
  | .save save _ => ∀ target ∈ targets,
      save.value target = canvas.value target

/-- All sequences of calls on a project whose canvas was never written. -/
def canvasSystem [DecidableEq Coordinate] (viewport : Viewport Coordinate) :
    TransitionSystem (Canvas Coordinate) (CanvasCall Coordinate) :=
  { initial := fun canvas => canvas = defaultCanvasState viewport
    step := fun canvas call next => next = canvas.afterCall call }

/-! ## Entities that a patch does not target -/

variable {target : String}

theorem get?_updateWith {Value : Type} (dict : Dict String Value)
    {updates : Dict String Value} (missing : target ∉ keys updates) :
    (updateWith dict updates).get? target = dict.get? target := by
  apply Dict.get?_foldl_put_of_missing
  exact fun member => missing (mem_toFinset.mpr member)

theorem mem_updateHidden (hidden : Finset String) {updates : Dict String Bool}
    (missing : target ∉ keys updates) :
    target ∈ updateHidden hidden updates ↔ target ∈ hidden := by
  have kept : (target ∈ updateHidden hidden updates) = (target ∈ hidden) := by
    apply foldl_keeps (fun hidden : Finset String => target ∈ hidden)
    intro hidden row member
    have different : target ≠ row.1 := by
      intro same
      exact missing (same ▸ mem_toFinset.mpr (mem_map_of_mem member))
    split <;> simp [different]
  rw [kept]

variable {groups : List CanvasGroup}

theorem get?_groupTable_of_missing (missing : target ∉ groups.map groupId)
    (table : Dict String (List String)) :
    (groupTable groups table).get? target = table.get? target :=
  Dict.get?_foldl_put_of_missing missing table

theorem get?_dropGroups {deletes : List String}
    (missing : target ∉ deletes) (table : Dict String (List String)) :
    (dropGroups deletes table).get? target = table.get? target := by
  apply foldl_keeps (fun table : Dict String (List String) => table.get? target)
  intro table groupId member
  have different : target ≠ groupId := by
    intro same
    exact missing (same ▸ member)
  simp [Dict.get?_remove, different]

/-- The groups that are written are read as the table they come from. -/
theorem get?_groupTable_sortedGroups (table : Dict String (List String))
    (target : String) : (groupTable (sortedGroups table) .empty).get? target =
      (table.get? target).map eraseDups := by
  have perm : (sortedGroups table).Perm (table.rows.map (fun row => mk row.1 row.2)) :=
    perm_insertionSort ..
  have ids : (sortedGroups table).map groupId |>.Perm (table.rows.map Prod.fst) := by
    have mapped := perm.map groupId
    simpa [Function.comp_def] using mapped
  cases found : table.get? target with
  | none =>
    have missing : target ∉ (sortedGroups table).map groupId := by
      intro member
      obtain ⟨row, rowMember, same⟩ := mem_map.mp (ids.mem_iff.mp member)
      subst same
      exact Dict.get?_eq_none_iff.mp found row.2 rowMember
    rw [get?_groupTable_of_missing missing]
    rfl
  | some members =>
    have member : mk target members ∈ sortedGroups table :=
      perm.mem_iff.mpr (mem_map.mpr ⟨(target, members), Dict.get?_eq_some_iff.mp found, rfl⟩)
    apply Dict.get?_foldl_put_of_mem member
    intro other isOther sameId
    rw [inj_on_of_nodup_map (ids.nodup_iff.mpr table.keysNodup) isOther member sameId]

theorem membersOf_sortedGroups (table : Dict String (List String)) (target : String) :
    membersOf (sortedGroups table) target = (table.get? target).map toFinset := by
  unfold membersOf
  rw [get?_groupTable_sortedGroups, Option.map_map]
  congr 1
  funext members
  ext element
  simp

/-- What it means that changes do not target an entity. -/
structure Untargeted (changes : Changes Coordinate) (target : String) : Prop where
  position : target ∉ keys changes.positionUpdates
  creation : target ∉ keys changes.hiddenCreationUpdates
  reference : target ∉ keys changes.hiddenReferenceUpdates
  upserted : target ∉ changes.groupUpserts.map groupId
  deleted : target ∉ changes.groupDeletes
  relations : target = relationsTarget → changes.showRelations = none

theorem Untargeted.of_not_mem {changes : Changes Coordinate}
    (outside : target ∉ changes.targets) : Untargeted changes target := by
  simp only [Changes.targets, Finset.mem_union, not_or, mem_toFinset] at outside
  obtain ⟨⟨⟨⟨⟨position, creation⟩, reference⟩, upserted⟩, deleted⟩, relations⟩ := outside
  refine ⟨position, creation, reference, upserted, deleted, ?_⟩
  intro isRelations
  cases shown : changes.showRelations with
  | none => rfl
  | some shows => simp [shown, isRelations] at relations

namespace Canvas

variable {canvas : Canvas Coordinate} {patch : CanvasPatch Coordinate} {target actorId now : String}

theorem applyCanvasPatch_merged {merged : Canvas Coordinate}
    (accepted : canvas.applyCanvasPatch patch actorId now = .ok (.merged merged)) :
    patch.changes.targets = keys patch.targetRevisions ∧ canvas.conflictIds patch = ∅ ∧
      ∃ groups, applyGroups canvas.groups patch.changes.groupUpserts
          patch.changes.groupDeletes = some groups ∧
        merged = canvas.merge patch groups actorId now := by
  unfold applyCanvasPatch at accepted
  repeat' split at accepted
  all_goals cases accepted
  rename_i exact conflictFree _ groups applied
  exact ⟨not_not.mp exact, not_not.mp conflictFree, groups, applied, rfl⟩

theorem seen_of_merged {merged : Canvas Coordinate}
    (accepted : canvas.applyCanvasPatch patch actorId now =
      .ok (.merged merged)) (member : target ∈ patch.changes.targets) :
    patch.targetRevisions.get? target = some (canvas.nodeRevision target : Int) := by
  have notIn : target ∉ canvas.conflictIds patch := by
    rw [(applyCanvasPatch_merged accepted).2.1]
    exact Finset.notMem_empty target
  simpa [conflictIds, member] using notIn

theorem get?_renew_of_missing {targets : List String}
    (missing : target ∉ targets) : (canvas.renew targets).get? target =
      canvas.nodeRevisions.get? target := by
  apply @Dict.get?_foldl_put_of_missing _ _ _ _ _ id
  rwa [map_id]

theorem get?_renew_of_mem {targets : List String} (member : target ∈ targets) :
    (canvas.renew targets).get? target = some (canvas.revision + 1) :=
  @Dict.get?_foldl_put_of_mem _ _ _ _ id _ targets target member
    (fun _ _ _ => rfl) canvas.nodeRevisions

theorem merge_value {groups : List CanvasGroup}
    (applied : applyGroups canvas.groups patch.changes.groupUpserts
      patch.changes.groupDeletes = some groups)
    (untargeted : target ∉ patch.changes.targets) :
    (canvas.merge patch groups actorId now).value target = canvas.value target := by
  have outside := Untargeted.of_not_mem untargeted
  have sameRelations : relationsOf (patch.changes.showRelations.getD canvas.showRelations)
        target = relationsOf canvas.showRelations target := by
    unfold relationsOf
    split
    · next isRelations => rw [outside.relations isRelations, Option.getD_none]
    · rfl
  have sameMembers : membersOf groups target = membersOf canvas.groups target := by
    simp only [applyGroups] at applied
    split at applied <;> cases applied
    rw [membersOf_sortedGroups, get?_groupTable_of_missing outside.upserted,
      get?_dropGroups outside.deleted]
    rfl
  simp only [value, merge, get?_updateWith _ outside.position, mem_updateHidden _ outside.creation,
    mem_updateHidden _ outside.reference, sameMembers, sameRelations]

end Canvas

/-! ## Revisions as stamps -/

/-- No revision of an entity is greater than that of the canvas. -/
def Canvas.Bounded (canvas : Canvas Coordinate) : Prop :=
  ∀ target, canvas.nodeRevision target ≤ canvas.revision

section Calls

variable [DecidableEq Coordinate] {canvas : Canvas Coordinate}
  {call : CanvasCall Coordinate} {target : String}

theorem Canvas.afterCall_cases (canvas : Canvas Coordinate) (call : CanvasCall Coordinate) :
    canvas.afterCall call = canvas ∨
    (∃ patch actorId now groups, call = .patch patch actorId now ∧
      patch.changes.targets = keys patch.targetRevisions ∧
      applyGroups canvas.groups patch.changes.groupUpserts
        patch.changes.groupDeletes = some groups ∧
      canvas.afterCall call = canvas.merge patch groups actorId now) ∨
    (∃ save now, call = .save save now ∧ canvas.afterCall call = canvas.replace save now) := by
  cases call with
  | patch patch actorId now =>
    simp only [afterCall]
    split
    · next accepted =>
        obtain ⟨exact, _, groups, applied, same⟩ := applyCanvasPatch_merged accepted
        exact .inr (.inl ⟨patch, actorId, now, groups, rfl, exact, applied, same⟩)
    · exact .inl rfl
  | save save now =>
    simp only [afterCall, saveCanvasState]
    split
    · next saved result =>
        split at result
        · cases result
        · split at result <;> cases result
          · exact .inl rfl
          · exact .inr (.inr ⟨save, now, rfl, rfl⟩)
    · exact .inl rfl

theorem Canvas.Bounded.afterCall (bounded : canvas.Bounded) : (canvas.afterCall call).Bounded := by
  intro target
  rcases canvas.afterCall_cases call with same | ⟨patch, actorId, now, groups,
    _, _, _, same⟩ | ⟨save, now, _, same⟩ <;> rw [same]
  · exact bounded target
  · by_cases member : target ∈ patch.targetRevisions.rows.map Prod.fst
    · simp [nodeRevision, merge, get?_renew_of_mem member]
    · have old := bounded target
      simp only [nodeRevision, merge, get?_renew_of_missing member] at old ⊢
      omega
  · exact Nat.le_succ_of_le (bounded target)

/-- The revision of an entity is a stamp for its value, as far as saves leave
the value. -/
theorem Canvas.Bounded.stamped (bounded : canvas.Bounded)
    {targets : Finset String} (member : target ∈ targets) (spares : Spares targets canvas call) :
    Stamped (fun canvas : Canvas Coordinate => canvas.nodeRevision target)
      (fun canvas : Canvas Coordinate => canvas.value target) canvas (canvas.afterCall call) := by
  rcases canvas.afterCall_cases call with same | ⟨patch, actorId, now, groups,
    _, exact, applied, same⟩ | ⟨save, now, isSave, same⟩ <;> rw [same]
  · exact Stamped.refl canvas
  · by_cases targeted : target ∈ patch.targetRevisions.rows.map Prod.fst
    · apply Stamped.of_lt
      have old := bounded target
      simp only [nodeRevision, merge, get?_renew_of_mem targeted] at old ⊢
      simp only [Option.getD_some]
      omega
    · apply Stamped.of_eq
      · simp only [nodeRevision, merge, get?_renew_of_missing targeted]
      · apply merge_value applied
        rw [exact]
        simpa [keys] using targeted
  · subst isSave
    exact Stamped.of_eq rfl (spares target member)

theorem bounded_invariant (viewport : Viewport Coordinate) :
    (canvasSystem viewport).Invariant Canvas.Bounded :=
  { initially := by
      intro canvas isInitial
      subst isInitial
      intro target
      exact Nat.le_refl 0
    preserved := by
      intro canvas call next bounded step
      subst step
      exact bounded.afterCall }

/-- A patch with the revisions of an earlier canvas is accepted only if the
values of its targets are those of that canvas, where no save since then has
brought other values for them. -/
theorem accepted_patch_saw_stored_values {viewport : Viewport Coordinate}
    {read current merged : Canvas Coordinate}
    {calls : List (CanvasCall Coordinate)} {patch : CanvasPatch Coordinate}
    {actorId now : String} (reachable : (canvasSystem viewport).Reachable read)
    (run : ((canvasSystem viewport).restrict (Spares patch.changes.targets)).Run read calls current)
    (seen : ∀ target ∈ patch.changes.targets,
      patch.targetRevisions.get? target = some (read.nodeRevision target))
    (accepted : current.applyCanvasPatch patch actorId now = .ok (.merged merged)) :
    ∀ target ∈ patch.changes.targets, current.value target = read.value target := by
  intro target member
  have bounded := (bounded_invariant viewport).reachable reachable
  have stamped : Stamped (fun canvas : Canvas Coordinate => canvas.nodeRevision target)
      (fun canvas : Canvas Coordinate => canvas.value target) read current := by
    apply Stamped.of_run _ _ run bounded
    · intro canvas call next isBounded step
      rw [step.2]
      exact isBounded.afterCall
    · intro canvas call next isBounded step
      rw [step.2]
      exact isBounded.stamped member step.1
  have unchanged : read.nodeRevision target = current.nodeRevision target := by
    have matched := Canvas.seen_of_merged accepted member
    rw [seen target member] at matched
    exact Int.ofNat.inj (Option.some.inj matched)
  exact (stamped.same unchanged).symm

end Calls

/-! ## A card that is moved twice -/

def origin : Viewport Int :=
  { x := 0
    y := 0
    scale := 1 }

/-- A patch that moves one card. -/
def movePatch (patchId target : String) (expected x : Int) : CanvasPatch Int :=
  { patchId := patchId
    baseRevision := 0
    targetRevisions := Dict.empty.put target expected
    changes :=
      { positionUpdates := Dict.empty.put target { x := x, y := 0 }
        hiddenCreationUpdates := .empty
        hiddenReferenceUpdates := .empty
        groupUpserts := []
        groupDeletes := []
        showRelations := none } }

/-- A save of one card. -/
def cardSave (target : String) (x : Int) : CanvasSave Int :=
  { viewport := origin
    positions := Dict.empty.put target { x := x, y := 0 }
    hiddenCreationIds := []
    hiddenReferenceIds := none
    groups := none
    showRelations := true
    expectedRevision := none
    persistViewport := false }

/-- The canvas with a card, as it is read. -/
def readCanvas : Canvas Int :=
  (defaultCanvasState origin).afterCall (.patch (movePatch "p1" "c_1" 0 1) "user" "now")

theorem readCanvas_reachable : (canvasSystem origin).Reachable readCanvas :=
  ⟨defaultCanvasState origin, [_], rfl, .cons rfl (.nil _)⟩

def secondMove : CanvasPatch Int := movePatch "p2" "c_1" 1 3

theorem secondMove_seen : ∀ target ∈ secondMove.changes.targets,
    secondMove.targetRevisions.get? target = some (readCanvas.nodeRevision target : Int) := by
  decide +kernel

/-- Whether a patch is accepted. -/
def accepts (canvas : Canvas Int) (patch : CanvasPatch Int) : Bool :=
  match canvas.applyCanvasPatch patch "user" "now" with
  | .ok (.merged _) => true
  | _ => false

theorem merged_of_accepts {canvas : Canvas Int} {patch : CanvasPatch Int}
    (accepted : accepts canvas patch = true) :
    ∃ merged, canvas.applyCanvasPatch patch "user" "now" = .ok (.merged merged) := by
  unfold accepts at accepted
  split at accepted
  · next merged result => exact ⟨merged, result⟩
  · cases accepted

/-- Another card is moved between the reading and the patch, and a save brings
the first one as it was read. -/
def otherMoved : List (CanvasCall Int) :=
  [.patch (movePatch "p3" "c_2" 0 5) "other" "now", .save (cardSave "c_1" 1) "now"]

theorem second_move_saw_stored_position : ∃ canvas merged,
      ((canvasSystem origin).restrict (Spares secondMove.changes.targets)).Run readCanvas
        otherMoved canvas ∧
      canvas.applyCanvasPatch secondMove "user" "now" = .ok (.merged merged) ∧
      ∀ target ∈ secondMove.changes.targets, canvas.value target = readCanvas.value target := by
  have run : ((canvasSystem origin).restrict (Spares secondMove.changes.targets)).Run readCanvas
      otherMoved _ :=
    .cons ⟨trivial, rfl⟩ (.cons ⟨show ∀ target ∈ _, _ by decide +kernel, rfl⟩ (.nil _))
  obtain ⟨merged, accepted⟩ := merged_of_accepts (show accepts (otherMoved.foldl Canvas.afterCall
      readCanvas) secondMove = true by decide +kernel)
  exact ⟨_, merged, run, accepted,
    accepted_patch_saw_stored_values readCanvas_reachable run secondMove_seen accepted⟩

/-- The card itself is moved by a save. -/
def savedOver : Canvas Int :=
  readCanvas.afterCall (.save (cardSave "c_1" 2) "now")

theorem patch_overwrites_saved_position : ∃ merged, (canvasSystem origin).Reachable readCanvas ∧
      (canvasSystem origin).Run readCanvas [.save (cardSave "c_1" 2) "now"] savedOver ∧
      (∀ target ∈ secondMove.changes.targets, secondMove.targetRevisions.get? target =
          some (readCanvas.nodeRevision target : Int)) ∧
      savedOver.applyCanvasPatch secondMove "user" "now" = .ok (.merged merged) ∧
      "c_1" ∈ secondMove.changes.targets ∧
      savedOver.value "c_1" ≠ readCanvas.value "c_1" := by
  obtain ⟨merged, accepted⟩ :=
    merged_of_accepts (show accepts savedOver secondMove = true by
      decide +kernel)
  exact ⟨merged, readCanvas_reachable, .cons rfl (.nil _), secondMove_seen,
    accepted, by decide +kernel, by decide +kernel⟩

end MatrixSpooll.FreeCreation
