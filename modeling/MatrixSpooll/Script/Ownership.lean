import MatrixSpooll.Script.Operations

/-!
# Assets stay with their item

An edit that is accepted leaves every item with the assets and the end frame
that the item of the same id had before, and items under a new id with none.
-/

namespace MatrixSpooll.Script

open Library List Json

/-! ## The editing core -/

theorem suffixedId_injective (stem : String) : Function.Injective (suffixedId stem) := by
  intro first second same
  have sameText : toString first = toString second :=
    (String.append_right_inj (stem ++ "_")).mp same
  have readBack := congrArg (Nat.ofDigitChars 10 ·.toList 0) sameText
  simpa [Nat.toString_eq_repr, Nat.ofDigitChars_toDigits] using readBack

theorem firstFree_taken {stem : String} {taken : List String}
    {fuel number : Nat} (found : firstFree stem taken fuel number ∈ taken) :
    ∀ further ≤ fuel, suffixedId stem (number + further) ∈ taken := by
  induction fuel generalizing number with
  | zero =>
    intro further atMost
    rw [Nat.le_zero.mp atMost]
    exact found
  | succ fuel induction =>
    unfold firstFree at found
    split at found
    · rename_i isTaken
      intro further atMost
      cases further with
      | zero => exact isTaken
      | succ further =>
        have later := induction found further (by omega)
        rwa [Nat.add_right_comm] at later
    · rename_i free
      exact absurd found free

/-- The search never runs out: among one more number than there are ids taken,
one is free. -/
theorem nextSuffixedId_free (base : String) (taken : List String) :
    nextSuffixedId base taken ∉ taken := by
  intro found
  obtain ⟨stem, all⟩ : ∃ stem, ∀ further ≤ taken.length,
      suffixedId stem (1 + further) ∈ taken := ⟨_, firstFree_taken found⟩
  have distinct : ((range (taken.length + 1)).map (fun further =>
      suffixedId stem (1 + further))).Nodup := by
    apply Nodup.map _ nodup_range
    intro first second same
    have sameNumber := suffixedId_injective _ same
    omega
  have inside : (range (taken.length + 1)).map (fun further =>
      suffixedId stem (1 + further)) ⊆ taken := by
    intro name member
    obtain ⟨further, listed, nameEq⟩ := mem_map.mp member
    rw [← nameEq]
    exact all further (Nat.lt_succ_iff.mp (mem_range.mp listed))
  have tooMany := (subperm_of_subset distinct inside).length_le
  rw [length_map, length_range] at tooMany
  omega

theorem itemId?_withoutAssets (runtime : Runtime) (kind : SkeletonKind)
    (fields : Fields) (itemId : String) :
    itemId? runtime kind.idField
      (.dict (withoutAssets fields kind.idField itemId)) = some itemId := by
  have notFrame : kind.idField ≠ "end_frame_image" := by
    cases kind <;> decide
  have notAssets : kind.idField ≠ "generated_assets" := by
    cases kind <;> decide
  unfold withoutAssets
  rw [itemId?_dict, get_pop, if_neg notFrame, get_put,
    if_neg notAssets, get_put, if_pos rfl, runtime.str_text]

theorem holdings_withoutAssets (fields : Fields) (idField itemId : String) :
    holdings (.dict (withoutAssets fields idField itemId)) = noHoldings := by
  unfold withoutAssets
  rw [holdings_dict, get_pop, if_pos rfl]
  unfold normalAssets
  rw [get_pop, if_neg (by decide), get_put, if_pos rfl]
  rfl

section Core

variable {runtime : Runtime} {kind : SkeletonKind} {original items : List Json}

/-- Custody with nothing set aside. -/
def Settled (runtime : Runtime) (kind : SkeletonKind) (original items : List Json) : Prop :=
  Custody (itemId? runtime kind.idField) holdings noHoldings original items (fun _ => none)

/-- The items of the script, some perhaps set aside. -/
def Kept (runtime : Runtime) (kind : SkeletonKind) (original : List Json)
    (script : EpisodeScript) : Prop :=
  ∃ final stash, resolveItems script = .ok (final, kind) ∧
    Custody (itemId? runtime kind.idField) holdings noHoldings original final stash

theorem Settled.cons (settled : Settled runtime kind original items)
    {itemId : String} (fields : Fields) (fresh : itemId ∉ existingIds runtime items kind.idField) :
    Settled runtime kind original (.dict (withoutAssets fields kind.idField itemId) :: items) := by
  have added := Custody.cons settled (itemId?_withoutAssets runtime kind fields itemId) fresh
    (holdings_withoutAssets fields kind.idField itemId)
  rw [Function.update_eq_self_iff.mpr rfl] at added
  exact added

theorem Settled.furtherParts (settled : Settled runtime kind original items)
    (itemId : String) {taken : List String} (parts : List Fields)
    (known : existingIds runtime items kind.idField ⊆ taken) :
    Settled runtime kind original ((furtherParts kind.idField itemId taken parts).map dict ++
        items) := by
  induction parts generalizing taken items with
  | nil => exact settled
  | cons part rest induction =>
    have free := nextSuffixedId_free itemId taken
    have added := settled.cons part (fun present => free (known present))
    have stillKnown : existingIds runtime (.dict (withoutAssets part kind.idField
          (nextSuffixedId itemId taken)) :: items) kind.idField ⊆
        nextSuffixedId itemId taken :: taken := by
      unfold existingIds
      rw [filterMap_cons_some (itemId?_withoutAssets runtime kind part _)]
      exact cons_subset_cons _ known
    exact Custody.perm (induction added stillKnown) perm_middle

theorem Settled.start (unique : (existingIds runtime items kind.idField).Nodup) :
    Settled runtime kind items items :=
  Custody.start unique

variable {script after : EpisodeScript}

section

variable (resolved : resolveItems script = .ok (items, kind))
include resolved

theorem resolveItems_of_found {index : Nat} {item : Json}
    (found : items[index]? = some item) (changed : List Json) :
    resolveItems (storeItems script kind changed) = .ok (changed, kind) := by
  rw [resolveItems_storeItems resolved, if_pos (has_of_found resolved found)]

variable (unique : (existingIds runtime items kind.idField).Nodup)
include unique

theorem insertSegment_kept {afterId : String} {newItem : Json}
    (result : insertSegment runtime script afterId newItem = .ok after) :
    Kept runtime kind items after := by
  unfold insertSegment at result
  split at result
  · rename_i fields
    simp only [resolved, bind, Except.bind] at result
    split at result <;> cases result
    rename_i index isIndex
    obtain ⟨anchor, found, _⟩ := findIndex_found isIndex
    refine ⟨_, fun _ => none, resolveItems_of_found resolved found _, ?_⟩
    have added := (Settled.start unique).cons fields
      (nextSuffixedId_free afterId (existingIds runtime items kind.idField))
    exact Custody.perm added (perm_insertIdx _ items (List.getElem?_eq_some_iff.mp found).1).symm
  · cases result

theorem removeSegment_kept {itemId : String}
    (result : removeSegment runtime script itemId = .ok after) :
    Kept runtime kind items after := by
  unfold removeSegment at result
  simp only [resolved, bind, Except.bind] at result
  split at result
  · cases result
  · rename_i index isIndex
    cases result
    obtain ⟨fields, found, _, isId⟩ := findIndex_found isIndex
    have gone : itemId? runtime kind.idField (.dict fields) = some itemId := by
      rw [itemId?_dict, isId]
    exact ⟨_, _, resolveItems_of_found resolved found _,
      Custody.remove (Custody.start unique) found gone⟩

theorem patchField_kept {itemId fieldPath : String} {value : Json}
    (result : patchField runtime script itemId fieldPath value = .ok after) :
    Kept runtime kind items after := by
  obtain ⟨others, otherKind, index, fields, changed, sameResolved, found,
    agree, stored⟩ := patchField_eq_ok result
  rw [resolved] at sameResolved
  cases sameResolved
  subst stored
  exact ⟨_, _, resolveItems_of_found resolved found _,
    Custody.revise (Settled.start unique) found (agree.itemId? runtime kind) agree.holdings⟩

theorem splitSegment_kept {itemId : String} {parts : List Json}
    (result : splitSegment runtime script itemId parts = .ok after) :
    Kept runtime kind items after := by
  unfold splitSegment at result
  obtain ⟨_, enough, rest⟩ := bind_eq_ok.mp result
  split at rest
  · cases rest
  · cases rest
    exact ⟨items, _, resolved, Settled.start unique⟩
  · rename_i first further isObjects
    simp only [resolved, bind, Except.bind] at rest
    split at rest
    · cases rest
    · rename_i index isIndex
      cases rest
      obtain ⟨owner, found, atIndex, isId⟩ := findIndex_found isIndex
      refine ⟨_, fun _ => none, resolveItems_of_found resolved found _, ?_⟩
      rw [atIndex]
      have sameId : itemId? runtime kind.idField (.dict (withAssetsOf owner
          (put first kind.idField (.str itemId)))) =
            itemId? runtime kind.idField (.dict owner) := by
        rw [itemId?_dict, itemId?_dict, get_withAssetsOf, if_neg,
          if_neg, get_put, if_pos rfl, runtime.str_text, isId]
        all_goals cases kind <;> decide
      have anchored : Settled runtime kind items (items.set index (.dict (withAssetsOf owner
            (put first kind.idField (.str itemId))))) :=
        Custody.revise (Settled.start unique) found sameId (holdings_withAssetsOf owner _)
      have known : existingIds runtime (items.set index (.dict (withAssetsOf owner
            (put first kind.idField (.str itemId))))) kind.idField ⊆
          existingIds runtime items kind.idField := by
        unfold existingIds
        rw [filterMap_set found sameId]
        exact Subset.refl _
      apply Custody.perm (anchored.furtherParts itemId further known)
      rw [set_eq_take_append_cons_drop,
        if_pos (List.getElem?_eq_some_iff.mp found).1, List.map_cons,
        append_assoc]
      apply perm_append_comm.trans
      rw [append_assoc]
      exact (perm_append_comm.cons _).append_left _

end

end Core

/-! ## Accepted edits -/

/-- Every item of `final` has what the item of its id had in `original`, or
nothing if there was none; ids stay unique. -/
structure KeepsAssets (runtime : Runtime) (kind : SkeletonKind)
    (original final : List Json) : Prop where
  unique : (existingIds runtime final kind.idField).Nodup
  owned : ∀ fields, .dict fields ∈ final →
    (∃ owner, .dict owner ∈ original ∧ runtime.str (get owner kind.idField) =
        runtime.str (get fields kind.idField) ∧
      normalAssets fields = normalAssets owner ∧
      get fields "end_frame_image" = get owner "end_frame_image") ∨
    runtime.str (get fields kind.idField) ∉ existingIds runtime original kind.idField ∧
      normalAssets fields = .dict [] ∧
      get fields "end_frame_image" = .null

theorem keepsAssets_of_custody {runtime : Runtime} {kind : SkeletonKind}
    {original final : List Json} {stash : String → Option (Json × Json)}
    (unique : (existingIds runtime original kind.idField).Nodup)
    (custody : Custody (itemId? runtime kind.idField) holdings noHoldings
      original final stash) : KeepsAssets runtime kind original final := by
  constructor
  · exact custody.distinct
  · intro fields member
    have owned := custody.owned _ member _ (itemId?_dict runtime kind.idField fields)
    by_cases known : runtime.str (get fields kind.idField) ∈
        existingIds runtime original kind.idField
    · left
      obtain ⟨item, isItem, isId⟩ := mem_filterMap.mp known
      cases item with
      | dict owner =>
        rw [holding_of_mem unique isItem isId, holdings_dict, holdings_dict, Prod.mk.injEq] at owned
        exact ⟨owner, isItem, Option.some.inj isId, owned⟩
      | _ => cases isId
    · right
      rw [holding_of_unknown known, holdings_dict, noHoldings, Prod.mk.injEq] at owned
      exact ⟨known, owned⟩

theorem resolveItems_stampMetadata (services : Services) (script : EpisodeScript) :
    resolveItems (stampMetadata services script) = resolveItems script := by
  have same : ∀ key, key ≠ "metadata" →
      (stampMetadata services script).get? key = script.get? key := by
    intro key other
    unfold stampMetadata
    rw [Dict.get?_put, if_neg other]
  have sameKind : resolveScriptKind (stampMetadata services script) = resolveScriptKind script := by
    unfold resolveScriptKind EpisodeScript.has EpisodeScript.value
    simp only [same "video_units" (by decide), same "segments" (by decide),
      same "scenes" (by decide), same "shots" (by decide),
      same "content_mode" (by decide)]
  have itemsKey : (resolveScriptKind script).itemsKey ≠ "metadata" := by
    cases resolveScriptKind script <;> decide
  unfold resolveItems
  simp only [sameKind, same _ itemsKey]

/-- A computation whose failures are all reported as failures. -/
def Refuses {Result : Type} (attempt : Except ScriptBatchEditResult Result) : Prop :=
  ∀ refused, attempt = .error refused → refused.success = false

namespace Refuses

variable {First Second : Type}

theorem ok (value : First) : Refuses (.ok value) := nofun

variable {refused : ScriptBatchEditResult}

theorem error (failed : refused.success = false) :
    Refuses (.error refused : Except ScriptBatchEditResult First) := by
  intro other isError
  cases isError
  exact failed

theorem require {condition : Prop} [Decidable condition] (failed : refused.success = false) :
    Refuses (Library.require condition refused) := by
  unfold Library.require
  split
  · exact ok ()
  · exact error failed

theorem bind {first : Except ScriptBatchEditResult First}
    {rest : First → Except ScriptBatchEditResult Second}
    (begins : Refuses first) (goesOn : ∀ value, Refuses (rest value)) :
    Refuses (first >>= rest) := by
  intro refused isError
  cases first with
  | error other =>
    cases isError
    exact begins _ rfl
  | ok value => exact goesOn value refused isError

theorem orRefuse {Failure : Type}
    (failed : refused.success = false) {attempt : Except Failure First} :
    Refuses (orRefuse refused attempt) := by
  cases attempt with
  | ok value => exact ok value
  | error _ => exact error failed

variable (services : Services) (target : EditTarget) (command : ScriptBatchEditCommand)

theorem openEdit (stored : EpisodeScript) : Refuses (openEdit services target command stored) := by
  unfold Script.openEdit
  apply bind (require rfl)
  intro _
  apply bind (require rfl)
  intro _
  split
  · exact ok _
  all_goals exact error rfl

theorem runOperations (stored : EpisodeScript) :
    Refuses (runOperations services target command stored) := by
  unfold Script.runOperations
  dsimp only
  split
  · exact ok _
  all_goals exact error rfl

theorem validateCandidate (before : Dict String SpeechPreparation) (progress : Progress) :
    Refuses (validateCandidate services target command before progress) := by
  unfold Script.validateCandidate
  apply bind (orRefuse rfl)
  intro after
  apply bind (require rfl)
  intro _
  repeat' split
  · exact error rfl
  · exact error rfl
  · exact ok ()

theorem commitCandidate (progress : Progress) :
    Refuses (commitCandidate services target progress) := by
  unfold Script.commitCandidate
  apply bind (orRefuse rfl)
  intro resolved
  dsimp only
  repeat' split
  any_goals exact error rfl
  exact ok _

theorem editCandidate (stored : EpisodeScript) :
    Refuses (editCandidate services target command stored) := by
  apply bind (openEdit services target command stored)
  intro before
  apply bind (runOperations services target command stored)
  intro progress
  apply bind (validateCandidate services target command before progress)
  intro _
  apply bind (commitCandidate services target progress)
  intro written
  exact ok _

end Refuses

variable {services : Services} {command : ScriptBatchEditCommand} {stored : EpisodeScript}

theorem execute_success {file : String} {after : EpisodeScript} {result : ScriptBatchEditResult}
    (ran : execute services file command stored = (after, result))
    (accepted : result.success = true) :
    ∃ index start progress, applyOperations services index start command.operations = .ok progress ∧
      start.editing = { script := stored, removedItems := Dict.empty } ∧
      resolveItems after = resolveItems progress.editing.script := by
  unfold execute at ran
  split at ran
  · cases ran
    cases accepted
  · dsimp only at ran
    split at ran
    · rename_i refused isRefused
      cases ran
      have failed := Refuses.editCandidate services _ command stored _ isRefused
      rw [accepted] at failed
      cases failed
    · rename_i written affectedIds isWritten
      cases ran
      unfold editCandidate at isWritten
      obtain ⟨_, _, rest⟩ := bind_eq_ok.mp isWritten
      obtain ⟨progress, applied, rest⟩ := bind_eq_ok.mp rest
      obtain ⟨_, _, rest⟩ := bind_eq_ok.mp rest
      obtain ⟨stamped, committed, built⟩ := bind_eq_ok.mp rest
      cases built
      unfold runOperations at applied
      dsimp only at applied
      split at applied
      · rename_i final loop
        cases applied
        refine ⟨0, _, _, loop, rfl, ?_⟩
        unfold commitCandidate at committed
        obtain ⟨_, _, rest⟩ := bind_eq_ok.mp committed
        dsimp only at rest
        repeat' split at rest
        all_goals cases rest
        exact resolveItems_stampMetadata services _
      all_goals cases applied

/-- The ways an edit can be made and go through. -/
inductive Edited (services : Services) (stored : EpisodeScript) : EpisodeScript → Prop where
  | batch {file : String} {command : ScriptBatchEditCommand}
      {after : EpisodeScript} {result : ScriptBatchEditResult} :
      execute services file command stored = (after, result) →
      result.success = true → Edited services stored after
  | tool {file : String} {current : EpisodeScript} {edit : ScriptEdit}
      {after : EpisodeScript} {result : ScriptBatchEditResult} :
      runTool services file current stored edit = .ok (after, result) →
      result.success = true → Edited services stored after
  | patched {itemId fieldPath : String} {value : Json}
      {after : EpisodeScript} :
      patchField services.runtime stored itemId fieldPath value =
        .ok after → Edited services stored after
  | inserted {afterId : String} {newItem : Json} {after : EpisodeScript} :
      insertSegment services.runtime stored afterId newItem = .ok after →
      Edited services stored after
  | removed {itemId : String} {after : EpisodeScript} :
      removeSegment services.runtime stored itemId = .ok after →
      Edited services stored after
  | split {itemId : String} {parts : List Json} {after : EpisodeScript} :
      splitSegment services.runtime stored itemId parts = .ok after →
      Edited services stored after

theorem execute_custody {file : String} {after : EpisodeScript}
    {result : ScriptBatchEditResult} {items : List Json} {kind : SkeletonKind}
    (resolved : resolveItems stored = .ok (items, kind))
    (unique : (existingIds services.runtime items kind.idField).Nodup)
    (ran : execute services file command stored = (after, result))
    (accepted : result.success = true) :
    Kept services.runtime kind items after := by
  obtain ⟨index, start, progress, applied, isStart, sameItems⟩ := execute_success ran accepted
  have sound : Sound services.runtime kind items items start.editing := by
    rw [isStart]
    constructor
    · exact resolved
    · by_cases present : EpisodeScript.has stored kind.itemsKey = true
      · exact Or.inl present
      · exact Or.inr (resolveItems_missing resolved (Bool.eq_false_iff.mpr present))
    · exact Custody.start unique
  obtain ⟨final, finalSound⟩ := sound.applyOperations applied
  exact ⟨final, _, sameItems.trans finalSound.resolved, finalSound.custody⟩

/-- Whatever the edit, assets stay with the id they were made for. -/
theorem edited_script_keeps_assets (services : Services)
    (stored after : EpisodeScript) (items : List Json) (kind : SkeletonKind)
    (resolved : resolveItems stored = .ok (items, kind))
    (unique : (existingIds services.runtime items kind.idField).Nodup)
    (edited : Edited services stored after) :
    ∃ final, resolveItems after = .ok (final, kind) ∧
      KeepsAssets services.runtime kind items final := by
  suffices kept : Kept services.runtime kind items after by
    obtain ⟨final, stash, finalResolved, custody⟩ := kept
    exact ⟨final, finalResolved, keepsAssets_of_custody unique custody⟩
  cases edited with
  | batch ran accepted => exact execute_custody resolved unique ran accepted
  | tool ran accepted =>
    obtain ⟨operations, _, executed⟩ := bind_eq_ok.mp ran
    exact execute_custody resolved unique (Except.ok.inj executed) accepted
  | patched result => exact patchField_kept resolved unique result
  | inserted result => exact insertSegment_kept resolved unique result
  | removed result => exact removeSegment_kept resolved unique result
  | split result => exact splitSegment_kept resolved unique result

/-- Services that let everything through. -/
def openServices : Services :=
  { runtime :=
      { str := fun value => (value.asStr?).getD "None"
        str_text := fun _ => rfl
        repr := id
        equal := fun _ _ => true
        isDecimal := fun _ => false
        parseInt := fun _ => 0 }
    migrationVerdict := none
    admitScriptUnit := fun _ _ => .ok
      { unitId := ""
        mode := none
        utterances := []
        problems := [] }
    deriveReferences := fun _ => []
    validateScriptStructure := fun _ => none
    validateEpisodePayload := fun _ => []
    prepareManifestCommit := fun _ _ _ => .ready
    commit := fun _ => .written
    scriptRevision := fun _ => "revision"
    filenameEpisode := fun _ => none
    now := "now" }

def segment (id image : String) : Fields :=
  [("segment_id", .str id), ("generated_assets", .dict [("storyboard_image", .str image)])]

def shortScript : EpisodeScript :=
  Dict.empty.put "segments" (.list
    [.dict (segment "E1S01" "one.png"), .dict (segment "E1S02" "two.png")])

/-- The first segment is removed and comes back behind a new one, with an
image of its own that does not count. -/
def reorderCommand : ScriptBatchEditCommand :=
  { episode := none
    expectedRevision := "revision"
    operations :=
      [.remove "E1S01", .insertAfter (some "E1S02") (segment "E1S03" "stolen.png"),
        .insertAfter (some "E1S03") (segment "E1S01" "other.png"),
        .update "E1S02" [("note", .str "changed")],
        .moveAfter "E1S02" none] }

theorem returning_segment_keeps_assets : (execute openServices "episode_1.json" reorderCommand
      shortScript).2.success = true ∧
    ∃ final, resolveItems (execute openServices "episode_1.json"
        reorderCommand shortScript).1 = .ok (final, .segments) ∧
      KeepsAssets openServices.runtime .segments [.dict (segment "E1S01" "one.png"),
          .dict (segment "E1S02" "two.png")] final := by
  have accepted : (execute openServices "episode_1.json" reorderCommand
      shortScript).2.success = true := by decide +kernel
  have ran : execute openServices "episode_1.json" reorderCommand
      shortScript = ((execute openServices "episode_1.json" reorderCommand
        shortScript).1, (execute openServices "episode_1.json" reorderCommand
        shortScript).2) := rfl
  exact ⟨accepted, edited_script_keeps_assets openServices shortScript _ _ _
    rfl (by decide) (.batch ran accepted)⟩

end MatrixSpooll.Script
