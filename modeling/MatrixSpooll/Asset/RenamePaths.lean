import MatrixSpooll.Asset.RenameResume

/-!
# Paths after a renaming

Which files a renaming moves is decided by scanning directories, and which
path fields it rewrites by looking at one entry.  Every field that named a
file still names one with the same bytes exactly when the two agree: when the
file at the place of the rewritten path is, after the moves, one with those
bytes.  No file is lost exactly when no move replaces another file, which is
checked for the files of the asset and not for its snapshots.
-/

namespace MatrixSpooll.Asset

open Library RenamePlan List Json Write

variable {Bytes : Type} {services : Services}

/-! ## Path fields -/

/-- The path fields of an entry. -/
inductive Slot where
  | sheet
  | image
  | audio
  | images (index : Nat)

/-- `reference_images` may name sequenced files. -/
def Slot.sequenced : Slot → Bool
  | .images _ => true
  | _ => false

/-- The text in a path field of an entry. -/
def slotText (assetType : AssetType) (slot : Slot) : Json → Option String
  | .dict entry =>
    match slot with
    | .sheet => (get entry assetType.spec.sheetField).asStr?
    | .image => (get entry "reference_image").asStr?
    | .audio => (get entry "reference_audio").asStr?
    | .images index =>
      match get entry "reference_images" with
      | .list images => images[index]?.bind asStr?
      | _ => none
  | _ => none

/-- What `rewrite_entry_paths` makes of the text in a path field. -/
def rewriteSlot (runtime : Runtime) (rename : AssetRename) (slot : Slot) (text : String) : String :=
  if text = "" then text
  else (rewritePath runtime rename text slot.sequenced).getD text

section Slots

variable {runtime : Runtime} {rename : AssetRename}

theorem asStr?_rewriteValue (slot : Slot) (value : Json) :
    (rewriteValue runtime rename slot.sequenced value).1.asStr? =
      value.asStr?.map (rewriteSlot runtime rename slot) := by
  cases value with
  | str text =>
    by_cases empty : text = ""
    · simp [rewriteValue, rewriteSlot, empty, asStr?]
    · cases rewritten : rewritePath runtime rename text slot.sequenced <;>
        simp [rewriteValue, rewriteSlot, empty, rewritten, asStr?]
  | _ => rfl

theorem get_rewriteField (entry : Fields) (field other : String) :
    get (rewriteField runtime rename entry field).1 other =
      if other = field then
        (rewriteValue runtime rename false (get entry field)).1
      else get entry other := by
  unfold rewriteField
  cases found : entry.lookup field with
  | none =>
    by_cases same : other = field
    · simp [same, Json.get, found, rewriteValue]
    · simp [same]
  | some value =>
    have read : Json.get entry field = value := by simp [Json.get, found]
    simp [get_put, read]

theorem get_rewriteImages (entry : Fields) (other : String) :
    get (rewriteImages runtime rename entry).1 other =
      if other = "reference_images" then
        match get entry "reference_images" with
        | .list images => .list (images.map (fun image =>
          (rewriteValue runtime rename true image).1))
        | value => value
      else get entry other := by
  unfold rewriteImages
  by_cases same : other = "reference_images"
  · subst same
    cases found : entry.lookup "reference_images" with
    | none => simp [Json.get, found]
    | some value => cases value <;> simp [Json.get, found, Json.lookup_put]
  · split
    · simp [Json.get_put, same]
    · simp [same]

theorem slotText_rewriteEntry (slot : Slot) (entry : Json) :
    slotText rename.assetType slot (rewriteEntry runtime rename entry).1 =
      (slotText rename.assetType slot entry).map (rewriteSlot runtime rename slot) := by
  obtain ⟨notImage, notAudio, notImages⟩ : rename.assetType.spec.sheetField ≠ "reference_image" ∧
      rename.assetType.spec.sheetField ≠ "reference_audio" ∧
      rename.assetType.spec.sheetField ≠ "reference_images" := by
    cases rename.assetType <;> decide
  cases entry with
  | dict fields =>
    have single : ∀ value, (rewriteValue runtime rename false
        value).1.asStr? = value.asStr?.map (rewriteSlot runtime rename
          .sheet) := asStr?_rewriteValue .sheet
    cases slot with
    | sheet =>
      simp [slotText, rewriteEntry, rewriteEntryPaths, get_rewriteImages,
        get_rewriteField, notImage, notAudio, notImages, single]
    | image =>
      simp [slotText, rewriteEntry, rewriteEntryPaths, get_rewriteImages,
        get_rewriteField, Ne.symm notImage, single]
      rfl
    | audio =>
      simp [slotText, rewriteEntry, rewriteEntryPaths, get_rewriteImages,
        get_rewriteField, Ne.symm notAudio, single]
      rfl
    | images index =>
      have several : ∀ value, (rewriteValue runtime rename true
          value).1.asStr? = value.asStr?.map (rewriteSlot runtime rename
            (.images index)) := asStr?_rewriteValue (.images index)
      simp only [slotText, rewriteEntry, rewriteEntryPaths,
        get_rewriteImages, get_rewriteField, if_pos,
        if_neg (Ne.symm notImages), String.reduceEq, if_false]
      cases get fields "reference_images" with
      | list images =>
        simp only [getElem?_map]
        cases images[index]? with
        | none => rfl
        | some image => exact several image
      | _ => rfl
  | _ => cases slot <;> rfl

end Slots

/-! ## Assets -/

/-- The entry of an asset in `project.json`. -/
def assetEntry (project : Fields) (assetType : AssetType) (key : String) : Json :=
  get (bucketOf project assetType) key

/-- The bytes of the file that a path names. -/
def bytesAt (state : ProjectState Bytes) (text : String) : Option Bytes :=
  (locate state.folders text).bind state.files.get?

/-- An object that was read from a file has distinct keys. -/
def DistinctKeys (project : Fields) : Prop :=
  ∀ assetType, ((bucketOf project assetType).map Prod.fst).Nodup

section Buckets

variable {rename : AssetRename} {bucket : Fields}

section

variable (noConflict : checkConflict services rename bucket = .ok ())
include noConflict

theorem ne_newName_of_noConflict {key : String} (member : key ∈ bucket.map Prod.fst)
    (other : normalizeAssetName services.runtime key ≠
      normalizeAssetName services.runtime rename.oldName) :
    key ≠ rename.newName := by
  intro isNew
  obtain ⟨conflict, found⟩ := resolveAssetKey_isSome member
    (congrArg (normalizeAssetName services.runtime) isNew)
  simp only [checkConflict, found] at noConflict
  split at noConflict
  case isTrue isOld =>
    have same := (resolveAssetKey_eq_some found).2
    rw [isOld, ← isNew] at same
    exact other same.symm
  case isFalse => cases noConflict

/-- The entry under the new name is the one that was found under the old
name. -/
theorem get_rekeyed_new (distinct : (bucket.map Prod.fst).Nodup) {name : String}
    (resolved : resolveAssetKey services.runtime bucket name = some rename.oldName) :
    get (rekeyed services.runtime bucket rename.oldName rename.newName)
      rename.newName = get bucket rename.oldName := by
  have same := (resolveAssetKey_eq_some resolved).2
  have chosen : bucket.reverse.find? (fun entry =>
        renamedKey services.runtime rename.oldName rename.newName entry.1 = rename.newName) =
      bucket.reverse.find? (fun entry =>
        normalizeAssetName services.runtime entry.1 =
          normalizeAssetName services.runtime name) := by
    apply find?_congr
    intro entry member
    rw [← same]
    by_cases equal : normalizeAssetName services.runtime entry.1 =
      normalizeAssetName services.runtime rename.oldName
    · simp [renamedKey, equal]
    · have different := ne_newName_of_noConflict noConflict
        (mem_map_of_mem (mem_reverse.mp member)) equal
      simp [renamedKey, equal, different]
  rw [resolveAssetKey_eq_find?, Option.map_eq_some_iff] at resolved
  obtain ⟨entry, found, isOld⟩ := resolved
  have member := mem_reverse.mp (mem_of_find?_eq_some found)
  unfold Json.get
  rw [lookup_rekeyed, chosen, found, ← isOld, lookup_of_mem distinct member]
  rfl

theorem get_rekeyed_other (distinct : (bucket.map Prod.fst).Nodup)
    {key : String} (other : normalizeAssetName services.runtime key ≠
      normalizeAssetName services.runtime rename.oldName)
    (present : key ∈ bucket.map Prod.fst) :
    get (rekeyed services.runtime bucket rename.oldName rename.newName) key = get bucket key := by
  obtain ⟨entry, member, rfl⟩ := mem_map.mp present
  have different := ne_newName_of_noConflict noConflict present other
  unfold Json.get
  rw [lookup_rekeyed, lookup_of_mem distinct member]
  cases found : bucket.reverse.find? (fun candidate =>
      renamedKey services.runtime rename.oldName rename.newName candidate.1 = entry.1) with
  | none =>
    have unmatched := find?_eq_none.mp found entry (mem_reverse.mpr member)
    simp [renamedKey, other] at unmatched
  | some candidate =>
    have listed := mem_reverse.mp (mem_of_find?_eq_some found)
    have isKey : renamedKey services.runtime rename.oldName rename.newName
        candidate.1 = entry.1 := by simpa using find?_some found
    have sameKey : candidate.1 = entry.1 := by
      unfold renamedKey at isKey
      split at isKey
      · exact absurd isKey.symm different
      · exact isKey
    rw [inj_on_of_nodup_map distinct listed member sameKey]
    rfl

end

end Buckets

/-! ## The state after a renaming -/

/-- The file that a write moves. -/
def Write.moved : Write → Option (Place × Place)
  | .move step => some step
  | _ => none

/-- The assets that a write saves. -/
def Write.saved : Write → Option Fields
  | .project document => some document
  | _ => none

variable {clock : String → String} {state final : ProjectState Bytes}

theorem perform_frame {next : ProjectState Bytes} {write : Write}
    (performed : perform services clock state write = .ok next) :
    next.folders = state.folders ∧
      next.files = moveFiles state.files write.moved.toList ∧
      ∀ assetType, bucketOf next.project assetType =
        bucketOf (write.saved.getD state.project) assetType := by
  cases write with
  | script change =>
    obtain ⟨script, _, built⟩ := bind_eq_ok.mp performed
    cases built
    exact ⟨rfl, rfl, fun _ => rfl⟩
  | draft _ | move _ | versions _ =>
    cases performed
    exact ⟨rfl, rfl, fun _ => rfl⟩
  | project project =>
    obtain ⟨touched, written, built⟩ := bind_eq_ok.mp performed
    cases built
    exact ⟨rfl, rfl, bucketOf_touchMetadata written⟩
  | manifest plan =>
    simp only [perform] at performed
    split at performed
    · cases performed
      exact ⟨rfl, rfl, fun _ => rfl⟩
    · obtain ⟨replaced, _, built⟩ := bind_eq_ok.mp performed
      cases built
      exact ⟨rfl, rfl, fun _ => rfl⟩

theorem performAll_frame {writes : List Write}
    (performed : performAll services clock writes state = .ok final) :
    final.folders = state.folders ∧
      final.files = moveFiles state.files (writes.filterMap moved) ∧
      ∀ assetType, bucketOf final.project assetType = bucketOf
        ((writes.filterMap saved).getLast?.getD state.project)
          assetType := by
  unfold performAll at performed
  induction writes generalizing state with
  | nil =>
    cases performed
    exact ⟨rfl, rfl, fun _ => rfl⟩
  | cons write writes induction =>
    rw [foldlM_cons] at performed
    obtain ⟨next, isNext, rest⟩ := bind_eq_ok.mp performed
    obtain ⟨folders, files, assets⟩ := perform_frame isNext
    obtain ⟨foldersRest, filesRest, assetsRest⟩ := induction rest
    refine ⟨foldersRest.trans folders, ?_, ?_⟩
    · rw [filesRest, files]
      cases here : write.moved <;> simp [here, moveFiles]
    · intro assetType
      rw [assetsRest]
      cases saved : writes.filterMap saved with
      | nil =>
        cases here : write.saved <;>
          simpa [saved, here] using assets assetType
      | cons first others =>
        cases here : write.saved <;>
          simp [saved, here, getLast?_cons]

/-- The moves of a renaming: the files of the asset, then its snapshots. -/
def renameMoves (services : Services) (state : ProjectState Bytes)
    (rename : AssetRename) : List (Place × Place) :=
  matchingMoves services.runtime rename state.files ++
    match renameResource services.runtime rename state.folders state.versions with
    | .ok (some history) => history.moves
    | _ => []

variable {plan : RenamePlan}

theorem RenamePlan.filterMap_claimWrites {Effect : Type} {effect : Write → Option Effect}
    (none : ∀ rekey, effect (.manifest rekey) = none) :
    plan.claimWrites.filterMap effect = [] := by
  unfold claimWrites
  cases plan.rekey with
  | none => rfl
  | some rekey => by_cases changed : rekey.changed <;> simp [changed, none]

theorem Planned.after_all (planned : Planned services state plan)
    (performed : performAll services clock plan.writes state = .ok final) :
    final.folders = state.folders ∧ final.files = moveFiles state.files
        (renameMoves services state plan.rename) ∧
      ∀ assetType, bucketOf final.project assetType = bucketOf plan.project assetType := by
  obtain ⟨folders, files, assets⟩ := performAll_frame performed
  have isMoves := (planAssetFileRenames_ok_iff.mp planned.moves).1
  have moved : plan.writes.filterMap moved = renameMoves services state plan.rename := by
    simp only [writes_eq, earlyWrites, renameMoves, planned.history, ← isMoves, filterMap_append,
      filterMap_claimWrites (fun _ => rfl : ∀ rekey, moved (.manifest rekey) = none)]
    cases plan.history <;>
      simp [filterMap_map, Function.comp_def, moved]
  have saved : plan.writes.filterMap saved = [plan.project] := by
    simp only [writes_eq, earlyWrites, filterMap_append, filterMap_claimWrites
        (fun _ => rfl : ∀ rekey, saved (.manifest rekey) = none)]
    cases plan.history <;>
      simp [filterMap_map, Function.comp_def, saved]
  refine ⟨folders, moved ▸ files, ?_⟩
  intro assetType
  rw [assets, saved]
  rfl

/-! ## Fields that follow their files -/

/-- The key of an asset after the renaming that is reported. -/
def reportedKey (services : Services) (report : AssetRenameReport)
    (assetType : AssetType) (key : String) : String :=
  if assetType.spec.bucketKey = report.table then
    renamedKey services.runtime report.oldName report.newName key
  else key

/-- The bytes that a path field of an asset leads to. -/
def slotBytes (state : ProjectState Bytes) (assetType : AssetType)
    (slot : Slot) (key : String) : Option Bytes :=
  (slotText assetType slot (assetEntry state.project assetType key)).bind (bytesAt state)

/-- Every path field that named a file names one with the same bytes, and no
file is lost. -/
structure PathsKept (services : Services) (report : AssetRenameReport)
    (state final : ProjectState Bytes) : Prop where
  fields : ∀ assetType key slot bytes, slotBytes state assetType slot key = some bytes →
      slotBytes final assetType slot (reportedKey services report assetType key) = some bytes
  files : Kept state.files final.files

/-- The text in a path field after the renaming. -/
def slotAfter (services : Services) (state : ProjectState Bytes)
    (rename : AssetRename) (assetType : AssetType) (slot : Slot) (key : String) : Option String :=
  if assetType = rename.assetType ∧ normalizeAssetName services.runtime key =
        normalizeAssetName services.runtime rename.oldName then
    (slotText assetType slot (assetEntry state.project assetType
      rename.oldName)).map (rewriteSlot services.runtime rename slot)
  else slotText assetType slot (assetEntry state.project assetType key)

/-- The moves take a file with the bytes of each path field to where the
field then leads, and replace no other file. -/
structure PathsFollow (services : Services) (state : ProjectState Bytes)
    (rename : AssetRename) : Prop where
  fields : ∀ assetType key slot bytes, slotBytes state assetType slot key = some bytes →
      ∃ origin, state.files.get? origin = some bytes ∧
        (slotAfter services state rename assetType slot key).bind (locate state.folders) =
            some (relocate (renameMoves services state rename) origin)
  files : Unobstructed state.files (renameMoves services state rename)

theorem bucketKey_injective {first second : AssetType}
    (same : first.spec.bucketKey = second.spec.bucketKey) :
    first = second := by
  cases first <;> cases second <;> first | rfl | (exact absurd same (by decide))

variable {assetType : AssetType}

theorem present_of_slotBytes {slot : Slot} {key : String} {bytes : Bytes}
    (found : slotBytes state assetType slot key = some bytes) :
    key ∈ (bucketOf state.project assetType).map Prod.fst := by
  rw [Json.mem_keys_iff]
  cases missing : (bucketOf state.project assetType).lookup key with
  | some entry => rfl
  | none => simp [slotBytes, assetEntry, Json.get, missing, slotText] at found

theorem Planned.slotText_after {name : String} (planned : Planned services state plan)
    (resolved : resolveAssetKey services.runtime
      (bucketOf state.project plan.rename.assetType) name =
        some plan.rename.oldName) (distinct : DistinctKeys state.project)
    (saved : ∀ assetType, bucketOf final.project assetType =
      bucketOf plan.project assetType) {key : String}
    (present : key ∈ (bucketOf state.project assetType).map Prod.fst) (slot : Slot) :
    slotText assetType slot (assetEntry final.project assetType
        (if assetType = plan.rename.assetType then
          renamedKey services.runtime plan.rename.oldName plan.rename.newName key
        else key)) =
      slotAfter services state plan.rename assetType slot key := by
  unfold assetEntry slotAfter
  rw [saved, mutateProject_eq planned.mutated]
  by_cases isType : assetType = plan.rename.assetType
  · subst isType
    rw [renamedProject, bucketOf_put, if_pos rfl]
    unfold renamedKey
    by_cases same : normalizeAssetName services.runtime key =
      normalizeAssetName services.runtime plan.rename.oldName
    · rw [if_pos same, if_pos ⟨rfl, same⟩, get_put, if_pos rfl,
        renamedEntry, get_rekeyed_new planned.noConflict (distinct _)
          resolved, slotText_rewriteEntry]
      rfl
    · have different := ne_newName_of_noConflict planned.noConflict present same
      rw [if_neg same, if_neg (fun both => same both.2), get_put,
        if_neg different, get_rekeyed_other planned.noConflict (distinct _) same present]
      rfl
  · have different : assetType.spec.bucketKey ≠ plan.rename.assetType.spec.bucketKey :=
      fun same => isType (bucketKey_injective same)
    rw [if_neg isType, if_neg (fun both => isType both.1)]
    simp only [renamedProject, bucketOf, objectOf, get_put, if_neg different]
    rfl

theorem bind_bytesAt_iff {moves : List (Place × Place)} (folders : final.folders = state.folders)
    (files : final.files = moveFiles state.files moves)
    (free : Unobstructed state.files moves) {text : Option String} {bytes : Bytes} :
    text.bind (bytesAt final) = some bytes ↔ ∃ origin, state.files.get? origin = some bytes ∧
        text.bind (locate state.folders) = some (relocate moves origin) := by
  have split : text.bind (bytesAt final) = some bytes ↔
      ∃ place, text.bind (locate state.folders) = some place ∧
        (moveFiles state.files moves).get? place = some bytes := by
    cases text with
    | none => simp
    | some text => simp [bytesAt, folders, files, Option.bind_eq_some_iff]
  rw [split]
  constructor
  · intro after
    obtain ⟨place, leads, found⟩ := after
    obtain ⟨origin, before, rfl⟩ := (get?_moveFiles_iff free).mp found
    exact ⟨origin, before, leads⟩
  · intro before
    obtain ⟨origin, found, leads⟩ := before
    exact ⟨_, leads, (get?_moveFiles_iff free).mpr ⟨origin, found, rfl⟩⟩

theorem Planned.paths_iff {request : RenameRequest} {name : String}
    (planned : Planned services state plan) (resolved : resolveAssetKey services.runtime
      (bucketOf state.project plan.rename.assetType) name = some plan.rename.oldName)
    (isTable : plan.rename.assetType.spec.bucketKey = request.table)
    (distinct : DistinctKeys state.project)
    (performed : performAll services clock plan.writes state = .ok final) :
    PathsKept services (plan.report request false) state final ↔
      PathsFollow services state plan.rename := by
  obtain ⟨folders, files, saved⟩ := planned.after_all performed
  have isKey : ∀ assetType key, reportedKey services (plan.report request false) assetType key =
        if assetType = plan.rename.assetType then
          renamedKey services.runtime plan.rename.oldName plan.rename.newName key
        else key := by
    intro assetType key
    have sameType : assetType.spec.bucketKey = request.table ↔
        assetType = plan.rename.assetType := by
      rw [← isTable]
      exact ⟨bucketKey_injective, fun same => same ▸ rfl⟩
    simp only [reportedKey, report, sameType]
  have kept : Kept state.files final.files ↔
      Unobstructed state.files (renameMoves services state plan.rename) := by
    rw [files]
    exact kept_moveFiles_iff
  constructor
  · intro paths
    have free := kept.mp paths.files
    refine ⟨?_, free⟩
    intro assetType key slot bytes before
    have after := paths.fields assetType key slot bytes before
    rw [slotBytes, isKey, planned.slotText_after resolved distinct saved
      (present_of_slotBytes before)] at after
    exact (bind_bytesAt_iff folders files free).mp after
  · intro follow
    refine ⟨?_, kept.mpr follow.files⟩
    intro assetType key slot bytes before
    rw [slotBytes, isKey, planned.slotText_after resolved distinct saved
      (present_of_slotBytes before)]
    exact (bind_bytesAt_iff folders files follow.files).mpr
      (follow.fields assetType key slot bytes before)

/-- The condition on the project and the request. -/
def FieldsFollow (services : Services) (state : ProjectState Bytes)
    (request : RenameRequest) : Prop :=
  ∀ assetType, resolveAssetType services request.table = .ok assetType →
  ∀ newClean, validateAssetName services.runtime request.newName = .ok newClean →
  ∀ oldKey, resolveAssetKey services.runtime
    (bucketOf state.project assetType) request.oldName = some oldKey →
    PathsFollow services state ⟨assetType, oldKey, newClean⟩

theorem resolveAssetType_bucketKey {table : String}
    (isType : resolveAssetType services table = .ok assetType) :
    assetType.spec.bucketKey = table := by
  unfold resolveAssetType at isType
  split at isType
  case h_1 found =>
    cases isType
    simpa using find?_some found
  case h_2 => cases isType

/-- A claim that is taken over late changes no path and no file. -/
theorem recovery_keeps_paths {request : RenameRequest} {rekey : RekeyPlan} {completedKey : String}
    (scanned : scan services state request = .ok (.recovery rekey completedKey))
    (performed : performAll services clock [.manifest rekey] state = .ok final) :
    PathsKept services (recoveryReport services request completedKey false) state final := by
  obtain ⟨assetType, isType, gone⟩ := scan_eq_recovery scanned
  obtain ⟨folders, files, saved⟩ := performAll_frame performed
  have sameFiles : final.files = state.files := files
  have sameAssets : ∀ assetType, bucketOf final.project assetType =
      bucketOf state.project assetType := saved
  have sameBytes : bytesAt final = bytesAt state := by
    funext text
    simp [bytesAt, folders, sameFiles]
  constructor
  · intro otherType key slot bytes before
    have sameKey : reportedKey services (recoveryReport services request
        completedKey false) otherType key = key := by
      unfold reportedKey renamedKey
      split
      case isTrue isTable =>
        obtain rfl : otherType = assetType := bucketKey_injective
          (isTable.trans (resolveAssetType_bucketKey isType).symm)
        have other := resolveAssetKey_eq_none_iff.mp gone key (present_of_slotBytes before)
        refine if_neg ?_
        intro same
        exact other (same.trans (services.runtime.nfc_nfc request.oldName))
      case isFalse => rfl
    rw [sameKey, slotBytes, assetEntry, sameAssets, sameBytes]
    exact before
  · rw [sameFiles]
    exact ⟨id, fun _ _ _ _ same => same, fun _ _ found => found⟩

/-- After a renaming every path field leads to the bytes it led to before,
and every file is kept, exactly when the fields follow their files. -/
theorem rename_keeps_paths_iff {clock : String → String}
    {request : RenameRequest} {state : ProjectState Bytes}
    {report : AssetRenameReport} (distinct : DistinctKeys state.project)
    (succeeds : (renameAsset services clock request false state).1 = .ok report) :
    PathsKept services report state (renameAsset services clock request false state).2 ↔
      FieldsFollow services state request := by
  cases scanned : scan services state request with
  | error raised => simp [renameAsset, scanned] at succeeds
  | ok found =>
    have performed := performAll_of_renameAsset scanned succeeds
    obtain rfl : report = found.report services request :=
      returning_eq_ok (renameAsset_of_scan scanned ▸ succeeds)
    cases found with
    | plan planned =>
      obtain ⟨isType, isClean, resolved, isPlanned⟩ := scan_eq_plan scanned
      refine (isPlanned.paths_iff resolved
        (resolveAssetType_bucketKey isType) distinct performed).trans ?_
      constructor
      · intro follow assetType isType' newClean isClean' oldKey resolved'
        cases isType.symm.trans isType'
        cases isClean.symm.trans isClean'
        cases resolved.symm.trans resolved'
        exact follow
      · intro follow
        exact follow _ isType _ isClean _ resolved
    | recovery rekey completedKey =>
      obtain ⟨assetType, isType, gone⟩ := scan_eq_recovery scanned
      refine iff_of_true (recovery_keeps_paths scanned performed) ?_
      intro otherType isType' _ _ oldKey resolved
      cases isType.symm.trans isType'
      cases gone.symm.trans resolved

/-! ## A sheet that is followed -/

/-- A character with a sheet. -/
def drawnCharacter : ProjectState Unit :=
  { ProjectState.empty with
    files := ProjectState.empty.files.put ["characters", "A.png"] ()
    folders := [["characters"]]
    project := [("characters", .dict [("A", .dict
      [("character_sheet", .str "characters/A.png")])])] }

theorem drawnCharacter_distinct : DistinctKeys drawnCharacter.project := by
  intro assetType
  cases assetType <;> decide +kernel

theorem drawnCharacter_follows : FieldsFollow permissive drawnCharacter renameAToB := by
  intro assetType isType newClean isClean oldKey resolved
  obtain ⟨rfl, rfl, rfl⟩ := renameAToB_resolved isType isClean resolved (by decide +kernel)
  constructor
  · intro assetType key slot bytes before
    have present := present_of_slotBytes before
    cases assetType with
    | character =>
      cases mem_singleton.mp present
      cases slot with
      | sheet =>
        cases bytes
        exact ⟨["characters", "A.png"], by decide +kernel, by decide +kernel⟩
      | image | audio | images _ => cases before
    | scene | prop | product => cases present
  · refine ⟨.inr (.inr ?_), trivial⟩
    decide +kernel

theorem drawn_character_keeps_sheet : ∃ report, (renameAsset permissive id renameAToB false
        drawnCharacter).1 = .ok report ∧
      PathsKept permissive report drawnCharacter
        (renameAsset permissive id renameAToB false drawnCharacter).2 := by
  obtain ⟨report, succeeds⟩ := exists_ok_of_isOk (by decide +kernel :
    (renameAsset permissive id renameAToB false drawnCharacter).1.isOk = true)
  exact ⟨report, succeeds, (rename_keeps_paths_iff drawnCharacter_distinct
    succeeds).mpr drawnCharacter_follows⟩

/-! ## A reference image that is moved and not followed -/

/-- A product whose reference image is the first of a sequence. -/
def sequencedReference : ProjectState Unit :=
  { ProjectState.empty with
    files := ProjectState.empty.files.put ["products", "refs", "A_1.png"] ()
    folders := [["products"], ["products", "refs"]]
    project := [("products", .dict [("A", .dict
      [("reference_image", .str "products/refs/A_1.png")])])] }

def renameProduct : RenameRequest :=
  { table := "products"
    oldName := "A"
    newName := "B" }

/-- The scan of the directory moves sequenced images; the field is rewritten
only if it has the very name of the asset. -/
theorem reference_image_dangles : (∃ report, (renameAsset permissive id renameProduct false
      sequencedReference).1 = .ok report) ∧
    slotBytes sequencedReference .product .image "A" = some () ∧
    slotText .product .image (assetEntry (renameAsset permissive id
      renameProduct false sequencedReference).2.project .product "B") =
        some "products/refs/A_1.png" ∧
    slotBytes (renameAsset permissive id renameProduct false
      sequencedReference).2 .product .image "B" = none := by
  refine ⟨?_, ?_, ?_, ?_⟩
  · exact exists_ok_of_isOk (by decide +kernel)
  all_goals decide +kernel

end MatrixSpooll.Asset
