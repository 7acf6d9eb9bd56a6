import MatrixSpooll.Library.Custody
import MatrixSpooll.Script.BatchEdit

/-!
# What an operation does to the items

An operation revises, inserts, moves or removes one item.  Revising leaves id,
assets and end frame alone; what is removed waits in the table of removed
items, and what is inserted takes its assets from there.
-/

namespace MatrixSpooll.Script

open Library Json

/-- The fields no edit of an item may change. -/
def guardedFields : List String :=
  ["generated_assets", "end_frame_image", "segment_id", "scene_id", "unit_id", "shot_id"]

/-- Two states of an item that differ in other fields only. -/
def Agree (before after : Fields) : Prop :=
  ∀ key ∈ guardedFields, get after key = get before key

namespace Agree

variable {before middle after : Fields}

theorem refl (fields : Fields) : Agree fields fields :=
  fun _ _ => rfl

theorem trans (first : Agree before middle) (second : Agree middle after) : Agree before after :=
  fun key guarded => (second key guarded).trans (first key guarded)

theorem put {key : String} (free : key ∉ guardedFields) (fields : Fields)
    (value : Json) : Agree fields (put fields key value) := by
  intro other guarded
  rw [get_put, if_neg (fun same : other = key => free (same ▸ guarded))]

theorem pop {key : String} (free : key ∉ guardedFields) (fields : Fields) :
    Agree fields (pop fields key) := by
  intro other guarded
  rw [get_pop, if_neg (fun same : other = key => free (same ▸ guarded))]

end Agree

theorem idField_guarded (kind : SkeletonKind) : kind.idField ∈ guardedFields := by
  cases kind <;> decide

/-- Assets and end frame of an entry. -/
def holdings : Json → Json × Json
  | .dict fields => (normalAssets fields, get fields "end_frame_image")
  | _ => (.dict [], .null)

def noHoldings : Json × Json := (.dict [], .null)

@[simp] theorem itemId?_dict (runtime : Runtime) (idField : String) (fields : Fields) :
    itemId? runtime idField (.dict fields) = some (runtime.str (get fields idField)) := rfl

@[simp] theorem holdings_dict (fields : Fields) : holdings (.dict fields) =
      (normalAssets fields, get fields "end_frame_image") := rfl

theorem Agree.itemId? {before after : Fields} (agree : Agree before after)
    (runtime : Runtime) (kind : SkeletonKind) :
    itemId? runtime kind.idField (.dict after) = itemId? runtime kind.idField (.dict before) := by
  rw [itemId?_dict, itemId?_dict, agree kind.idField (idField_guarded kind)]

theorem Agree.holdings {before after : Fields} (agree : Agree before after) :
    holdings (.dict after) = holdings (.dict before) := by
  rw [holdings_dict, holdings_dict]
  unfold normalAssets
  rw [agree "generated_assets" (by decide), agree "end_frame_image" (by decide)]

/-! ## Changes of one item -/

variable {runtime : Runtime} {fieldPath : String} {value : Json}

theorem protectedFieldError_guarded {root : String}
    (free : protectedFieldError root = none) : root ∉ guardedFields := by
  intro guarded
  have cases : ∀ name ∈ guardedFields, (protectedFieldError name).isSome = true := by decide
  have refused := cases root guarded
  rw [free] at refused
  cases refused

theorem setNested_agree {fields changed : Fields}
    (result : setNested runtime fields fieldPath value = .ok changed) :
    Agree fields changed := by
  unfold setNested at result
  obtain ⟨_, _, walked⟩ := bind_eq_ok.mp result
  cases parts : dotParts fieldPath with
  | nil =>
    rw [parts] at walked
    cases walked
    exact Agree.refl fields
  | cons root rest =>
    rw [parts, List.head?_cons, Option.bind_some] at walked
    split at walked
    · cases walked
    · rename_i free
      have agrees := Agree.put (protectedFieldError_guarded free) fields
      cases rest with
      | nil =>
        cases walked
        exact agrees value
      | cons next rest =>
        unfold setPath at walked
        split at walked
        · cases walked
        · obtain ⟨deeper, _, built⟩ := bind_eq_ok.mp walked
          cases built
          exact agrees (.dict deeper)
        · cases walked

section Settle

variable {services : Services}

theorem rederiveVideoUnitReferences_agree (fields : Fields) :
    Agree fields (rederiveVideoUnitReferences services fields) := by
  unfold rederiveVideoUnitReferences
  split
  · exact Agree.put (by decide) fields _
  · exact Agree.refl fields

variable {fields changed : Fields}

theorem refreshVideoUnitReplanState_agree {allowClear contentChanged : Bool}
    (result : refreshVideoUnitReplanState services allowClear contentChanged
      fields = .ok changed) : Agree fields changed := by
  have opened : Agree fields (consumeMigrationMarker contentChanged fields) := by
    unfold consumeMigrationMarker
    split
    · exact Agree.pop (by decide) fields
    · exact Agree.refl fields
  apply opened.trans
  unfold refreshVideoUnitReplanState at result
  dsimp only at result
  split at result
  · cases result
    exact Agree.put (by decide) _ _
  · split at result
    · cases result
      exact Agree.put (by decide) _ _
    · obtain ⟨preparation, _, settled⟩ := bind_eq_ok.mp result
      split at settled <;> cases settled
      · exact Agree.put (by decide) _ _
      · split
        · exact Agree.pop (by decide) _
        · exact Agree.refl _

theorem settleVideoUnit_agree {roots : List String} {previous : Fields}
    (result : settleVideoUnit services roots previous fields = .ok changed) :
    Agree fields changed := by
  unfold settleVideoUnit at result
  simp only at result
  have derived : ∀ condition : Bool, Agree fields (if condition = true then
      rederiveVideoUnitReferences services fields else fields) := by
    intro condition
    split
    · exact rederiveVideoUnitReferences_agree fields
    · exact Agree.refl fields
  split at result
  · exact (derived _).trans (refreshVideoUnitReplanState_agree result)
  · cases result
    exact derived _

theorem settleInserted_agree {kind : SkeletonKind}
    (result : settleInserted services kind fields = .ok changed) :
    Agree fields changed := by
  unfold settleInserted at result
  split at result
  · have derived : Agree fields (if has fields "references" = true then
        fields else rederiveVideoUnitReferences services fields) := by
      split
      · exact Agree.refl fields
      · exact rederiveVideoUnitReferences_agree fields
    exact derived.trans (refreshVideoUnitReplanState_agree result)
  · cases result
    exact Agree.refl fields

end Settle

/-! ## Operations -/

variable (removed : Dict String Fields) (itemId : String)

/-- What the removed items hold. -/
def stashOf : Option (Json × Json) :=
  (removed.get? itemId).map (fun fields => holdings (.dict fields))

theorem stashOf_put (fields : Fields) :
    stashOf (removed.put itemId fields) = Function.update (stashOf removed)
      itemId (some (holdings (.dict fields))) := by
  funext other
  unfold stashOf
  rw [Dict.get?_put, Function.update_apply]
  split <;> rfl

theorem stashOf_remove : stashOf (removed.remove itemId) =
      Function.update (stashOf removed) itemId none := by
  funext other
  unfold stashOf
  rw [Dict.get?_remove, Function.update_apply]
  split <;> rfl

theorem has_of_found {script : EpisodeScript} {kind : SkeletonKind}
    {items : List Json} {index : Nat} {item : Json}
    (resolved : resolveItems script = .ok (items, kind)) (found : items[index]? = some item) :
    EpisodeScript.has script kind.itemsKey = true := by
  by_contra missing
  have isEmpty := resolveItems_missing resolved (Bool.eq_false_iff.mpr missing)
  rw [isEmpty] at found
  cases found

/-- The items of a script in the course of an edit; `original` are the ones it
began with. -/
structure Sound (runtime : Runtime) (kind : SkeletonKind)
    (original items : List Json) (editing : Editing) : Prop where
  resolved : resolveItems editing.script = .ok (items, kind)
  attached : EpisodeScript.has editing.script kind.itemsKey = true ∨ original = []
  custody : Custody (itemId? runtime kind.idField) holdings noHoldings
    original items (stashOf editing.removedItems)

namespace Sound

variable {services : Services} {kind : SkeletonKind}
  {original items : List Json} {editing : Editing}

section

variable (sound : Sound services.runtime kind original items editing)
include sound

theorem store (present : EpisodeScript.has editing.script kind.itemsKey = true)
    {changed : List Json} {removed : Dict String Fields}
    (custody : Custody (itemId? services.runtime kind.idField) holdings
      noHoldings original changed (stashOf removed)) :
    Sound services.runtime kind original changed
      { script := storeItems editing.script kind changed
        removedItems := removed } := by
  have resolved := resolveItems_storeItems sound.resolved changed
  rw [if_pos present] at resolved
  constructor
  · exact resolved
  · left
    rw [has_storeItems]
    exact present
  · exact custody

theorem revise {index : Nat} {fields changed : Fields}
    (found : items[index]? = some (.dict fields)) (agree : Agree fields changed) :
    Sound services.runtime kind original (items.set index (.dict changed))
      { editing with
        script := storeItems editing.script kind (items.set index (.dict changed)) } :=
  sound.store (has_of_found sound.resolved found)
    (sound.custody.revise found (agree.itemId? services.runtime kind) agree.holdings)

end

end Sound

theorem findItem_eq_ok {services : Services} {items : List Json}
    {idField itemId : String} {index : Nat}
    (found : findItem services items idField itemId = .ok index) :
    findIndex services.runtime items idField itemId = some index := by
  unfold findItem at found
  split at found <;> cases found
  next isIndex => exact isIndex

theorem blame_eq_ok {Result : Type} {location : List PathPart}
    {text : String → String} {attempt : Except ScriptEditError Result}
    {result : Result} (succeeded : blame location text attempt = .ok result) :
    attempt = .ok result := by
  cases attempt with
  | ok value =>
    cases succeeded
    rfl
  | error error => cases succeeded

theorem patchField_eq_ok {script patched : EpisodeScript} {itemId : String}
    (result : patchField runtime script itemId fieldPath value = .ok patched) :
    ∃ items kind index fields changed, resolveItems script = .ok (items, kind) ∧
      items[index]? = some (.dict fields) ∧ Agree fields changed ∧
      patched = storeItems script kind (items.set index (.dict changed)) := by
  unfold patchField at result
  obtain ⟨⟨items, kind⟩, resolved, rest⟩ := bind_eq_ok.mp result
  dsimp only at rest
  split at rest
  · cases rest
  · rename_i index isIndex
    obtain ⟨changed, isSet, stored⟩ := bind_eq_ok.mp rest
    cases stored
    obtain ⟨fields, found, atIndex, _⟩ := findIndex_found isIndex
    rw [atIndex] at isSet
    exact ⟨items, kind, index, fields, changed, resolved, found, setNested_agree isSet, rfl⟩

/-! ## Assets of inserted items -/

theorem normalAssets_eq_dict (fields : Fields) : ∃ assets, normalAssets fields = .dict assets := by
  unfold normalAssets
  split <;> exact ⟨_, rfl⟩

theorem get_withAssetsOf (owner fields : Fields) (key : String) :
    get (withAssetsOf owner fields) key =
      if key = "end_frame_image" then get owner "end_frame_image"
      else if key = "generated_assets" then normalAssets owner
      else get fields key := by
  unfold withAssetsOf
  dsimp only
  split
  · rename_i noFrame
    rw [get_pop, get_put, noFrame]
  · rw [get_put, get_put]

theorem holdings_withAssetsOf (owner fields : Fields) :
    holdings (.dict (withAssetsOf owner fields)) = holdings (.dict owner) := by
  have assets : normalAssets (withAssetsOf owner fields) = normalAssets owner := by
    obtain ⟨assets, isDict⟩ := normalAssets_eq_dict owner
    conv_lhs => unfold normalAssets
    rw [get_withAssetsOf, if_neg (by decide), if_pos rfl, isDict]
  rw [holdings_dict, holdings_dict, assets, get_withAssetsOf, if_pos rfl]

theorem holdings_ownAssets (removed : Dict String Fields) (itemId : String) (item : Fields) :
    holdings (.dict (ownAssets (removed.get? itemId) item)) =
      (stashOf removed itemId).getD noHoldings := by
  unfold stashOf
  cases removed.get? itemId with
  | none =>
    unfold ownAssets
    rw [holdings_dict, get_pop, if_pos rfl]
    unfold normalAssets
    rw [get_pop, if_neg (by decide), get_put, if_pos rfl]
    rfl
  | some owner => exact holdings_withAssetsOf owner item

theorem get_ownAssets {removed : Option Fields} {item : Fields}
    {key : String} (notFrame : key ≠ "end_frame_image") (notAssets : key ≠ "generated_assets") :
    get (ownAssets removed item) key = get item key := by
  cases removed with
  | none =>
    unfold ownAssets
    rw [get_pop, if_neg notFrame, get_put, if_neg notAssets]
  | some owner =>
    unfold ownAssets
    rw [get_withAssetsOf, if_neg notFrame, if_neg notAssets]

theorem itemId_of_nonempty (runtime : Runtime) (nonempty : value.asStr?.getD "" ≠ "") :
    runtime.str value = value.asStr?.getD "" := by
  cases value with
  | str text => exact runtime.str_text text
  | _ => exact absurd rfl nonempty

namespace Sound

variable {services : Services} {kind : SkeletonKind}
  {original items : List Json} {editing after : Editing} {touched : Touched}

section

variable (sound : Sound services.runtime kind original items editing)
include sound

theorem goes_on {Result : Type} {result : Result}
    {rest : List Json × SkeletonKind → Except OperationFailure Result}
    (ran : (lift (resolveItems editing.script) >>= rest) = .ok result) :
    rest (items, kind) = .ok result := by
  rw [sound.resolved] at ran
  exact ran

theorem patchFields {itemId : String} {fields : Fields} {patched : EpisodeScript}
    (result : patchFields services itemId fields editing.script = .ok patched)
    {index : Nat} (object : ∃ item, items[index]? = some (.dict item)) :
    ∃ changed, Sound services.runtime kind original changed
        { editing with script := patched } ∧
      ∃ item, changed[index]? = some (.dict item) := by
  induction fields generalizing items editing with
  | nil =>
    cases result
    exact ⟨items, sound, object⟩
  | cons field rest induction =>
    obtain ⟨path, value⟩ := field
    unfold Script.patchFields at result
    obtain ⟨script, first, later⟩ := bind_eq_ok.mp result
    obtain ⟨others, otherKind, position, before, changed, resolved, found,
      agree, stored⟩ := patchField_eq_ok (blame_eq_ok first)
    rw [sound.resolved] at resolved
    cases resolved
    subst stored
    have stillObject : ∃ item, (items.set position (.dict changed))[index]? =
          some (.dict item) := by
      obtain ⟨item, isItem⟩ := object
      by_cases same : position = index
      · subst same
        exact ⟨changed, List.getElem?_set_self (List.getElem?_eq_some_iff.mp isItem).1⟩
      · exact ⟨item, (List.getElem?_set_ne same).trans isItem⟩
    have next := induction (sound.revise found agree) later stillObject
    exact next

theorem applyUpdate {itemId : String} {fields : Fields}
    (result : applyUpdate services editing itemId fields = .ok (after, touched)) :
    ∃ changed, Sound services.runtime kind original changed after := by
  unfold Script.applyUpdate at result
  obtain ⟨_, _, rest⟩ := bind_eq_ok.mp result
  obtain ⟨index, isIndex, rest⟩ := bind_eq_ok.mp (sound.goes_on rest)
  obtain ⟨_, _, rest⟩ := bind_eq_ok.mp rest
  obtain ⟨patched, isPatched, rest⟩ := bind_eq_ok.mp rest
  obtain ⟨item, found, _, _⟩ := findIndex_found (findItem_eq_ok (blame_eq_ok isIndex))
  obtain ⟨changed, patchedSound, object, isObject⟩ := sound.patchFields isPatched ⟨item, found⟩
  obtain ⟨settled, isSettled, rest⟩ := bind_eq_ok.mp (patchedSound.goes_on rest)
  obtain ⟨_, _, built⟩ := bind_eq_ok.mp rest
  cases built
  have atIndex : fieldsAt changed index = object := by
    unfold fieldsAt
    rw [isObject]
  have agree : Agree object settled := by
    rw [atIndex] at isSettled
    unfold settleUpdated at isSettled
    split at isSettled
    · exact settleVideoUnit_agree isSettled
    · unfold settleItem at isSettled
      obtain ⟨after, _, settles⟩ := bind_eq_ok.mp isSettled
      cases settles
      split
      · exact Agree.pop (by decide) object
      · exact Agree.refl object
  exact ⟨_, patchedSound.revise isObject agree⟩

end

variable {afterId : Option String}

theorem anchorPlace_le {items : List Json} {idField : String} {place : Nat}
    (result : anchorPlace services items idField afterId = .ok place) :
    place ≤ items.length := by
  cases afterId with
  | none =>
    cases result
    exact Nat.zero_le _
  | some itemId =>
    obtain ⟨index, isIndex, built⟩ := bind_eq_ok.mp result
    cases built
    obtain ⟨fields, found, _⟩ := findIndex_found (findItem_eq_ok (blame_eq_ok isIndex))
    exact (List.getElem?_eq_some_iff.mp found).1

section

variable (sound : Sound services.runtime kind original items editing)
include sound

theorem applyMove {itemId : String}
    (result : applyMove services editing itemId afterId = .ok (after, touched)) :
    ∃ changed, Sound services.runtime kind original changed after := by
  unfold Script.applyMove at result
  obtain ⟨_, _, rest⟩ := bind_eq_ok.mp result
  obtain ⟨index, isIndex, rest⟩ := bind_eq_ok.mp (sound.goes_on rest)
  obtain ⟨_, _, rest⟩ := bind_eq_ok.mp rest
  obtain ⟨place, isPlace, rest⟩ := bind_eq_ok.mp rest
  obtain ⟨_, _, built⟩ := bind_eq_ok.mp rest
  cases built
  obtain ⟨fields, found, atIndex, _⟩ := findIndex_found (findItem_eq_ok (blame_eq_ok isIndex))
  obtain ⟨inside, isItem⟩ := List.getElem?_eq_some_iff.mp found
  have out : items.Perm (.dict fields :: items.eraseIdx index) := by
    rw [← isItem]
    exact (List.getElem_cons_eraseIdx_perm inside).symm
  have back := List.perm_insertIdx (.dict fields) (items.eraseIdx index) (anchorPlace_le isPlace)
  rw [atIndex]
  exact ⟨_, sound.store (has_of_found sound.resolved found)
    (sound.custody.perm (out.trans back.symm))⟩

theorem applyRemove {itemId : String}
    (result : applyRemove services editing itemId = .ok (after, touched)) :
    ∃ changed, Sound services.runtime kind original changed after := by
  unfold Script.applyRemove at result
  obtain ⟨index, isIndex, rest⟩ := bind_eq_ok.mp (sound.goes_on result)
  obtain ⟨_, _, built⟩ := bind_eq_ok.mp rest
  cases built
  obtain ⟨fields, found, atIndex, isId⟩ := findIndex_found (findItem_eq_ok (blame_eq_ok isIndex))
  refine ⟨_, sound.store (has_of_found sound.resolved found) ?_⟩
  rw [atIndex, stashOf_put]
  apply sound.custody.remove found
  rw [itemId?_dict, isId]

theorem applyInsert {item : Fields}
    (result : applyInsert services editing afterId item = .ok (after, touched)) :
    ∃ changed, Sound services.runtime kind original changed after := by
  unfold Script.applyInsert at result
  obtain ⟨_, nonempty, rest⟩ := bind_eq_ok.mp (sound.goes_on result)
  obtain ⟨_, fresh, rest⟩ := bind_eq_ok.mp rest
  obtain ⟨place, isPlace, rest⟩ := bind_eq_ok.mp rest
  obtain ⟨settled, isSettled, rest⟩ := bind_eq_ok.mp rest
  obtain ⟨_, _, built⟩ := bind_eq_ok.mp rest
  cases built
  have isNew := require_eq_ok.mp fresh
  have agree := settleInserted_agree isSettled
  have isId := itemId_of_nonempty services.runtime (require_eq_ok.mp nonempty)
  have inserted : itemId? services.runtime kind.idField (.dict settled) =
      some ((get item kind.idField).asStr?.getD "") := by
    rw [agree.itemId? services.runtime kind, itemId?_dict, get_ownAssets, isId]
    all_goals cases kind <;> decide
  have given : holdings (.dict settled) = (stashOf editing.removedItems
        ((get item kind.idField).asStr?.getD "")).getD noHoldings := by
    rw [agree.holdings]
    exact holdings_ownAssets _ _ item
  by_cases present : EpisodeScript.has editing.script kind.itemsKey = true
  · refine ⟨_, sound.store present ?_⟩
    rw [stashOf_remove]
    exact sound.custody.insert (anchorPlace_le isPlace) inserted isNew given
  · -- The list is not part of the script, and the item is lost with it.
    have resolved := resolveItems_storeItems sound.resolved (items.insertIdx place (.dict settled))
    rw [if_neg present] at resolved
    have isEmpty := resolveItems_missing sound.resolved (Bool.eq_false_iff.mpr present)
    have noOriginal := sound.attached.resolve_left present
    refine ⟨[], resolved, Or.inr noOriginal, ?_⟩
    rw [stashOf_remove]
    have custody := sound.custody
    rw [isEmpty] at custody
    apply custody.release
    rw [noOriginal]
    exact List.not_mem_nil

theorem applyOperation {operation : ScriptBatchOperation}
    (result : applyOperation services editing operation = .ok (after, touched)) :
    ∃ changed, Sound services.runtime kind original changed after := by
  cases operation with
  | update itemId fields => exact sound.applyUpdate result
  | insertAfter afterId item => exact sound.applyInsert result
  | moveAfter itemId afterId => exact sound.applyMove result
  | remove itemId => exact sound.applyRemove result

end

theorem applyOperations {index : Nat} {progress final : Progress}
    {operations : List ScriptBatchOperation}
    (sound : Sound services.runtime kind original items progress.editing)
    (result : applyOperations services index progress operations = .ok final) :
    ∃ changed, Sound services.runtime kind original changed final.editing := by
  induction operations generalizing index progress items with
  | nil =>
    cases result
    exact ⟨items, sound⟩
  | cons operation rest induction =>
    unfold Script.applyOperations at result
    split at result
    · cases result
    · rename_i editing touched applied
      obtain ⟨changed, next⟩ := sound.applyOperation applied
      exact @induction _ _ (progress.touch index editing touched) next result

end Sound

end MatrixSpooll.Script
