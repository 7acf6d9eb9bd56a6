import MatrixSpooll.FreeCreation.CanvasConflicts
import Mathlib.Data.Finset.Card

/-!
# Patches one after the other

A patch that was merged is refused ever after, also when its identifier is no
longer among the recent ones: the revisions of its targets have grown.  Two
patches of different entities have the same effect in either order.
-/

namespace MatrixSpooll.FreeCreation

open Library Canvas Dict Untargeted

variable {Coordinate : Type}

/-! ## Changes of single entries -/

section Entries

variable {State : Type u} {View : Type v} {Item : Type w}

/-- Two changes commute in a view that one leaves alone and the other changes
as the view says. -/
theorem commute_at {view : State → View} {keeping changing : State → State}
    (keeps : ∀ state, view (keeping state) = view state)
    (agrees : ∀ first second, view first = view second →
      view (changing first) = view (changing second)) (state : State) :
    view (keeping (changing state)) = view (changing (keeping state)) := by
  rw [keeps]
  exact agrees _ _ (keeps state).symm

theorem foldl_agrees (view : State → View) {turn : State → Item → State}
    (agrees : ∀ item first second, view first = view second →
      view (turn first item) = view (turn second item)) (items : List Item)
    (first second : State) (same : view first = view second) :
    view (items.foldl turn first) = view (items.foldl turn second) := by
  induction items generalizing first second with
  | nil => exact same
  | cons item items induction => exact induction _ _ (agrees item _ _ same)

end Entries

variable {target : String}

theorem updateWith_comm {Value : Type} {first second : Dict String Value}
    (apart : target ∉ keys first ∨ target ∉ keys second) (dict : Dict String Value) :
    (updateWith (updateWith dict first) second).get? target =
      (updateWith (updateWith dict second) first).get? target := by
  have agrees : ∀ updates first second : Dict String Value,
      first.get? target = second.get? target →
      (updateWith first updates).get? target = (updateWith second updates).get? target := by
    intro updates
    apply foldl_agrees (fun dict : Dict String Value => dict.get? target)
    intro row first second same
    rw [get?_put, get?_put, same]
  rcases apart with missing | missing
  · exact (commute_at (fun dict => get?_updateWith dict missing) (agrees second) dict).symm
  · exact commute_at (fun dict => get?_updateWith dict missing) (agrees first) dict

theorem updateHidden_comm {first second : Dict String Bool}
    (apart : target ∉ keys first ∨ target ∉ keys second) (hidden : Finset String) :
    target ∈ updateHidden (updateHidden hidden first) second ↔
      target ∈ updateHidden (updateHidden hidden second) first := by
  have agrees : ∀ (updates : Dict String Bool) (first second : Finset String),
      (target ∈ first) = (target ∈ second) →
      (target ∈ updateHidden first updates) = (target ∈ updateHidden second updates) := by
    intro updates
    apply foldl_agrees (fun hidden : Finset String => target ∈ hidden)
    intro row first second same
    split <;> simp [same]
  have keeps : ∀ {updates : Dict String Bool}, target ∉ keys updates →
      ∀ hidden, (target ∈ updateHidden hidden updates) = (target ∈ hidden) :=
    fun missing hidden => propext (mem_updateHidden hidden missing)
  rcases apart with missing | missing
  · exact Eq.to_iff (commute_at (keeps missing) (agrees second) hidden).symm
  · exact Eq.to_iff (commute_at (keeps missing) (agrees first) hidden)

/-! ## Groups -/

theorem nodup_eraseDups : ∀ members : List String, members.eraseDups.Nodup
  | [] => by simp
  | member :: members => by
      rw [List.eraseDups_cons]
      refine List.nodup_cons.mpr ⟨?_, nodup_eraseDups _⟩
      simp [List.mem_eraseDups]
termination_by members => members.length
decreasing_by
  exact Nat.lt_succ_of_le (List.length_filter_le _ _)

theorem eraseDups_of_nodup {members : List String} (nodup : members.Nodup) :
    members.eraseDups = members := by
  induction members with
  | nil => rfl
  | cons member members induction =>
    obtain ⟨fresh, rest⟩ := List.nodup_cons.mp nodup
    have others : members.filter (fun other => !other == member) = members := by
      apply List.filter_eq_self.mpr
      intro other inside
      have different : other ≠ member := fun same => fresh (same ▸ inside)
      simp [different]
    rw [List.eraseDups_cons, others, induction rest]

variable (upserts : List CanvasGroup) (deletes : List String) (groups : List CanvasGroup)

/-- The table that `_apply_groups` builds. -/
def regroupTable : Dict String (List String) :=
  groupTable upserts (dropGroups deletes (groupTable groups .empty))

def regroup : List CanvasGroup :=
  sortedGroups (regroupTable upserts deletes groups)

/-- The members of a group, as they are read. -/
def readGroup (target : String) : Option (List String) :=
  (groupTable groups .empty).get? target

/-- No group of the table repeats a member. -/
def Clean (table : Dict String (List String)) : Prop :=
  ∀ target, (table.get? target).map List.eraseDups = table.get? target

theorem Clean.groupTable {table : Dict String (List String)}
    (clean : Clean table) (groups : List CanvasGroup) :
    Clean (groupTable groups table) := by
  refine foldl_loop (fun _ table => Clean table) ?_ clean
  intro group _ table clean target
  rw [get?_put]
  split
  · rw [Option.map_some, eraseDups_of_nodup (nodup_eraseDups _)]
  · exact clean target

theorem clean_regroupTable : Clean (regroupTable upserts deletes groups) := by
  have empty : Clean .empty := fun _ => rfl
  have dropped : Clean (dropGroups deletes (groupTable groups .empty)) := by
    refine foldl_loop (fun _ table => Clean table) ?_ (empty.groupTable groups)
    intro groupId _ table clean target
    rw [get?_remove]
    split
    · rfl
    · exact clean target
  exact dropped.groupTable upserts

variable {upserts : List CanvasGroup} {deletes : List String}

theorem readGroup_regroup (groups : List CanvasGroup) :
    readGroup (regroup upserts deletes groups) target =
      (regroupTable upserts deletes groups).get? target := by
  unfold readGroup regroup
  rw [get?_groupTable_sortedGroups, clean_regroupTable]

theorem regroup_keeps (notUpserted : target ∉ upserts.map CanvasGroup.groupId)
    (notDeleted : target ∉ deletes) (groups : List CanvasGroup) :
    readGroup (regroup upserts deletes groups) target = readGroup groups target := by
  rw [readGroup_regroup, regroupTable,
    get?_groupTable_of_missing notUpserted, get?_dropGroups notDeleted]
  rfl

theorem regroup_agrees (first second : List CanvasGroup)
    (same : readGroup first target = readGroup second target) :
    readGroup (regroup upserts deletes first) target =
      readGroup (regroup upserts deletes second) target := by
  rw [readGroup_regroup, readGroup_regroup]
  apply foldl_agrees (fun table : Dict String (List String) => table.get? target)
  · intro group first second same
    rw [get?_put, get?_put, same]
  · apply foldl_agrees (fun table : Dict String (List String) => table.get? target) _ deletes
      _ _ same
    intro groupId first second same
    rw [get?_remove, get?_remove, same]

theorem sortedGroups_congr {first second : Dict String (List String)}
    (same : ∀ target, first.get? target = second.get? target) :
    sortedGroups first = sortedGroups second := by
  have rowsNodup : ∀ table : Dict String (List String), table.rows.Nodup :=
    fun table => table.keysNodup.of_map
  have rows : first.rows.Perm second.rows := by
    apply (List.perm_ext_iff_of_nodup (rowsNodup first) (rowsNodup second)).mpr
    rintro ⟨key, value⟩
    rw [← get?_eq_some_iff, ← get?_eq_some_iff, same]
  have perm : (sortedGroups first).Perm (sortedGroups second) :=
    (List.perm_insertionSort ..).trans ((rows.map _).trans (List.perm_insertionSort ..).symm)
  refine List.Perm.eq_of_pairwise ?_ (List.pairwise_insertionSort _ _)
    (List.pairwise_insertionSort _ _) perm
  intro one other isOne isOther least greatest
  have inRows : ∀ group ∈ sortedGroups second, (group.groupId, group.memberIds) ∈ second.rows := by
    intro group member
    obtain ⟨row, inside, rfl⟩ := List.mem_map.mp ((List.mem_insertionSort _).mp member)
    exact inside
  have key : one.groupId = other.groupId := le_antisymm least greatest
  have members := KeyedTable.eq_of_key_eq (inRows one (perm.mem_iff.mp isOne))
    (inRows other isOther) key
  obtain ⟨oneId, oneMembers⟩ := one
  obtain ⟨otherId, otherMembers⟩ := other
  cases members
  rfl

/-- Groups as a patch leaves them. -/
structure Separate (groups : List CanvasGroup) : Prop where
  pair : ∀ group ∈ groups, 2 ≤ group.memberIds.toFinset.card
  apart : groups.Pairwise (fun first second =>
    Disjoint first.memberIds.toFinset second.memberIds.toFinset)

theorem uniqueMembers_apart {groups : List CanvasGroup}
    {members : Finset String} (unique : uniqueMembers groups members = true) :
    (∀ group ∈ groups, 2 ≤ group.memberIds.length ∧ Disjoint members group.memberIds.toFinset) ∧
    groups.Pairwise (fun first second =>
      Disjoint first.memberIds.toFinset second.memberIds.toFinset) := by
  induction groups generalizing members with
  | nil => exact ⟨fun _ member => absurd member List.not_mem_nil, .nil⟩
  | cons group groups induction =>
    simp only [uniqueMembers, Bool.and_eq_true, decide_eq_true_eq] at unique
    obtain ⟨⟨pair, fresh⟩, rest⟩ := unique
    obtain ⟨others, pairwise⟩ := induction rest
    refine ⟨?_, List.pairwise_cons.mpr ⟨?_, pairwise⟩⟩
    · intro other member
      rcases List.mem_cons.mp member with same | later
      · subst same
        refine ⟨pair, Finset.disjoint_right.mpr ?_⟩
        intro element inside
        simpa using List.all_eq_true.mp fresh element (List.mem_toFinset.mp inside)
      · obtain ⟨enough, disjoint⟩ := others other later
        exact ⟨enough, (Finset.disjoint_union_left.mp disjoint).1⟩
    · intro other member
      exact (Finset.disjoint_union_left.mp (others other member).2).2

theorem separate_regroup {groups : List CanvasGroup}
    (unique : uniqueMembers (regroup upserts deletes groups) ∅ = true) :
    Separate (regroup upserts deletes groups) := by
  obtain ⟨pairs, apart⟩ := uniqueMembers_apart unique
  refine { pair := ?_, apart := apart }
  intro group member
  obtain ⟨row, inside, rfl⟩ := List.mem_map.mp ((List.mem_insertionSort _).mp member)
  have clean := clean_regroupTable upserts deletes groups row.1
  rw [get?_eq_some_iff.mpr inside, Option.map_some] at clean
  have nodup : row.2.Nodup := Option.some.inj clean ▸ nodup_eraseDups row.2
  rw [List.toFinset_card_of_nodup nodup]
  exact (pairs _ member).1

/-! ## Runs of patches -/

/-- All sequences of patches on a project whose canvas was never written. -/
def patchSystem [DecidableEq Coordinate] (viewport : Viewport Coordinate) :
    TransitionSystem (Canvas Coordinate) (CanvasCall Coordinate) :=
  (canvasSystem viewport).restrict (fun _ call =>
    ∃ patch actorId now, call = .patch patch actorId now)

section Runs

variable [DecidableEq Coordinate] {viewport : Viewport Coordinate}
  {canvas merged : Canvas Coordinate} {patch : CanvasPatch Coordinate}
  {calls : List (CanvasCall Coordinate)} {actorId now : String}

theorem applyGroups_eq {groups result : List CanvasGroup}
    (applied : applyGroups groups upserts deletes = some result) :
    uniqueMembers (regroup upserts deletes groups) ∅ = true ∧
      result = regroup upserts deletes groups := by
  simp only [applyGroups] at applied
  split at applied <;> cases applied
  next unique => exact ⟨unique, rfl⟩

theorem patch_invariant (viewport : Viewport Coordinate) :
    (patchSystem viewport).Invariant (fun canvas =>
      canvas.Bounded ∧ Separate canvas.groups) := by
  constructor
  · intro canvas isInitial
    refine ⟨(bounded_invariant viewport).initially canvas isInitial, ?_⟩
    rw [show canvas = defaultCanvasState viewport from isInitial]
    exact { pair := fun _ member => absurd member List.not_mem_nil, apart := .nil }
  · rintro canvas call next ⟨bounded, separate⟩ ⟨⟨patch, actorId, now, rfl⟩, step⟩
    subst step
    refine ⟨bounded.afterCall, ?_⟩
    rcases canvas.afterCall_cases (.patch patch actorId now) with same |
      ⟨_, _, _, groups, _, _, applied, same⟩ | ⟨_, _, impossible, _⟩
    · rw [same]
      exact separate
    · rw [same]
      obtain ⟨unique, isGroups⟩ := applyGroups_eq applied
      show Separate groups
      rw [isGroups]
      exact separate_regroup unique
    · cases impossible

theorem merged_patch_conflicts {later again : Canvas Coordinate}
    {target laterActor laterNow : String} (bounded : canvas.Bounded)
    (accepted : canvas.applyCanvasPatch patch actorId now =
      .ok (.merged merged)) (member : target ∈ patch.changes.targets)
    (run : (patchSystem viewport).Run merged calls later) :
    later.applyCanvasPatch patch laterActor laterNow ≠ .ok (.merged again) := by
  intro acceptedAgain
  obtain ⟨exact, _, groups, _, isMerged⟩ := applyCanvasPatch_merged accepted
  have targeted : target ∈ patch.targetRevisions.rows.map Prod.fst := by
    rw [exact] at member
    exact List.mem_toFinset.mp member
  have renewed : merged.nodeRevision target = canvas.revision + 1 := by
    rw [isMerged]
    simp [nodeRevision, merge, get?_renew_of_mem targeted]
  have mergedBounded : merged.Bounded := by
    have after : (canvas.afterCall (.patch patch actorId now)).Bounded := bounded.afterCall
    simpa only [afterCall, accepted] using after
  have stamped : Stamped (fun canvas : Canvas Coordinate => canvas.nodeRevision target)
      (fun canvas : Canvas Coordinate => canvas.value target) merged later := by
    apply Stamped.of_run _ _ run mergedBounded
    · rintro canvas call next isBounded ⟨_, rfl⟩
      exact isBounded.afterCall
    · rintro canvas call next isBounded ⟨⟨patch, actorId, now, rfl⟩, rfl⟩
      exact isBounded.stamped (Finset.mem_singleton_self target) trivial
  have rises : merged.nodeRevision target ≤ later.nodeRevision target := stamped.rises
  have old := seen_of_merged accepted member
  rw [seen_of_merged acceptedAgain member] at old
  have unchanged := Int.ofNat.inj (Option.some.inj old)
  have below := bounded target
  omega

/-- A merged patch with a target is never merged again.  Two patches with
disjoint targets that are accepted in both orders leave the same positions,
hidden entities, groups and relations.  The groups that patches leave are
disjoint and have two members or more. -/
theorem patches_apply_once_and_commute (viewport : Viewport Coordinate) :
    (∀ canvas merged later patch actorId now calls, (patchSystem viewport).Reachable canvas →
      patch.changes.targets.Nonempty →
      canvas.applyCanvasPatch patch actorId now = .ok (.merged merged) →
      (patchSystem viewport).Run merged calls later →
      ∀ laterActor laterNow again, later.applyCanvasPatch patch laterActor laterNow ≠
          .ok (.merged again)) ∧
    (∀ (canvas first second firstSecond secondFirst : Canvas Coordinate)
      (one other : CanvasPatch Coordinate) (oneActor otherActor : String) (now : Fin 4 → String),
      Disjoint one.changes.targets other.changes.targets →
      canvas.applyCanvasPatch one oneActor (now 0) = .ok (.merged first) →
      first.applyCanvasPatch other otherActor (now 1) = .ok (.merged firstSecond) →
      canvas.applyCanvasPatch other otherActor (now 2) = .ok (.merged second) →
      second.applyCanvasPatch one oneActor (now 3) = .ok (.merged secondFirst) →
      (∀ target, firstSecond.positions.get? target = secondFirst.positions.get? target) ∧
      firstSecond.hiddenCreationIds = secondFirst.hiddenCreationIds ∧
      firstSecond.hiddenReferenceIds = secondFirst.hiddenReferenceIds ∧
      firstSecond.groups = secondFirst.groups ∧
      firstSecond.showRelations = secondFirst.showRelations) ∧
    ∀ canvas, (patchSystem viewport).Reachable canvas → Separate canvas.groups := by
  refine ⟨?_, ?_, ?_⟩
  · rintro canvas merged later patch actorId now calls reachable
      ⟨target, member⟩ accepted run laterActor laterNow again
    exact merged_patch_conflicts
      ((patch_invariant viewport).reachable reachable).1 accepted member run
  · intro canvas first second firstSecond secondFirst one other oneActor
      otherActor now disjoint acceptOne acceptOther acceptSecond acceptLast
    obtain ⟨_, _, _, appliedOne, rfl⟩ := applyCanvasPatch_merged acceptOne
    obtain ⟨_, _, _, appliedOther, rfl⟩ := applyCanvasPatch_merged acceptOther
    obtain ⟨_, _, _, appliedSecond, rfl⟩ := applyCanvasPatch_merged acceptSecond
    obtain ⟨_, _, _, appliedLast, rfl⟩ := applyCanvasPatch_merged acceptLast
    have apart : ∀ target, Untargeted one.changes target ∨ Untargeted other.changes target := by
      intro target
      by_cases member : target ∈ one.changes.targets
      · exact .inr (.of_not_mem (Finset.disjoint_left.mp disjoint member))
      · exact .inl (.of_not_mem member)
    refine ⟨fun target => updateWith_comm
      ((apart target).imp position position) _,
      Finset.ext fun target => updateHidden_comm
        ((apart target).imp creation creation) _,
      Finset.ext fun target => updateHidden_comm
        ((apart target).imp reference reference) _,
      ?_, ?_⟩
    · have first := (applyGroups_eq appliedOne).2
      have second := (applyGroups_eq appliedSecond).2
      show _ = _
      rw [(applyGroups_eq appliedOther).2, (applyGroups_eq appliedLast).2]
      simp only [merge, first, second]
      apply sortedGroups_congr
      intro target
      rw [← readGroup_regroup, ← readGroup_regroup]
      rcases apart target with outside | outside
      · exact (commute_at (regroup_keeps outside.upserted outside.deleted)
          regroup_agrees canvas.groups).symm
      · exact commute_at (regroup_keeps outside.upserted outside.deleted)
          regroup_agrees canvas.groups
    · show other.changes.showRelations.getD (one.changes.showRelations.getD canvas.showRelations) =
        one.changes.showRelations.getD (other.changes.showRelations.getD canvas.showRelations)
      rcases apart relationsTarget with outside | outside
      all_goals
        rw [outside.relations rfl]
        rfl
  · intro canvas reachable
    exact ((patch_invariant viewport).reachable reachable).2

end Runs

def oneMove : CanvasPatch Int := movePatch "p1" "c_1" 0 1

def otherMove : CanvasPatch Int := movePatch "p2" "c_2" 0 5

/-- Two cards are moved in either order, and neither patch is merged again. -/
theorem two_moves_commute : ∃ first second firstSecond secondFirst : Canvas Int,
    (defaultCanvasState origin).applyCanvasPatch oneMove "user" "now" = .ok (.merged first) ∧
    first.applyCanvasPatch otherMove "user" "now" = .ok (.merged firstSecond) ∧
    (defaultCanvasState origin).applyCanvasPatch otherMove "user" "now" = .ok (.merged second) ∧
    second.applyCanvasPatch oneMove "user" "now" = .ok (.merged secondFirst) ∧
    (∀ target, firstSecond.positions.get? target = secondFirst.positions.get? target) ∧
    ∀ again, firstSecond.applyCanvasPatch oneMove "user" "now" ≠ .ok (.merged again) := by
  obtain ⟨once, commute, _⟩ := patches_apply_once_and_commute origin
  exact ⟨_, _, _, _, rfl, rfl, rfl, rfl,
    (commute (defaultCanvasState origin) _ _ _ _ oneMove otherMove "user" "user"
      (fun _ => "now") (by decide) rfl rfl rfl rfl).1,
    once (defaultCanvasState origin) _ _ oneMove "user" "now" [.patch otherMove "user" "now"]
      ⟨_, [], rfl, .nil _⟩ ⟨"c_1", by decide⟩ rfl (.cons ⟨⟨_, _, _, rfl⟩, rfl⟩ (.nil _))
      "user" "now"⟩

end MatrixSpooll.FreeCreation
