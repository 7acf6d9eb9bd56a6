import MatrixSpooll.Asset.RenameResume

/-!
# Renaming again after a crash

A renaming that stops between two of its writes is run again.  What was
written is not planned a second time, so the second run makes the writes that
are left; once `project.json` is written, only the claim is left, and it is
taken from the old name.  The two runs end in one state, up to the times in
the documents, if no rewritten document and no moved file is matched once more
and the claim follows the sheet of the asset.
-/

namespace MatrixSpooll.Asset

open Library RenamePlan List Json ProjectState

variable {Bytes : Type} {services : Services}

/-! ## Documents without their times -/

/-- A document without the times of its creation and its last change. -/
def withoutTimes (document : Fields) : Fields :=
  match document.lookup "metadata" with
  | some (.dict metadata) => put document "metadata"
      (.dict (pop (pop metadata "created_at") "updated_at"))
  | _ => document

def untimed : Option Json → Option Json
  | some (.dict document) => some (.dict (withoutTimes document))
  | content => content

structure SameButTimes (first second : ProjectState Bytes) : Prop where
  scripts : ∀ filename, (first.scripts.get? filename).map untimed =
    (second.scripts.get? filename).map untimed
  drafts : first.drafts = second.drafts
  files : first.files = second.files
  folders : first.folders = second.folders
  versions : first.versions = second.versions
  project : withoutTimes first.project = withoutTimes second.project
  manifest : first.manifest = second.manifest

theorem SameButTimes.refl (state : ProjectState Bytes) : SameButTimes state state :=
  ⟨fun _ => rfl, rfl, rfl, rfl, rfl, rfl, rfl⟩

theorem withoutTimes_put (document metadata : Fields) :
    withoutTimes (put document "metadata" (.dict metadata)) = put document "metadata" (.dict
        (pop (pop metadata "created_at") "updated_at")) := by
  simp [withoutTimes, lookup_put, put_put]

theorem prepareScript_eq {now : String} {change : ScriptChange} {script : Json}
    (prepared : prepareScript services now change = .ok script) :
    ∃ fields, change.script = .dict fields ∧ script = .dict (put fields "metadata"
        (.dict (touchScriptMetadata now (get fields "metadata")))) := by
  simp only [prepareScript, bind_eq_ok] at prepared
  obtain ⟨_, _, _, _, built⟩ := prepared
  split at built
  case h_1 fields isDict => exact ⟨fields, isDict, (Except.ok.inj built).symm⟩
  case h_2 => cases built

theorem touchMetadata_untimed {first second : String} {project touched other : Fields}
    (written : touchMetadata first project = .ok touched)
    (writtenAgain : touchMetadata second project = .ok other) :
    withoutTimes touched = withoutTimes other := by
  unfold touchMetadata at written writtenAgain
  cases stored : project.lookup "metadata" with
  | none =>
    simp only [stored, Except.ok.injEq] at written writtenAgain
    subst written writtenAgain
    simp [withoutTimes_put, pop]
  | some value =>
    rw [stored] at written writtenAgain
    cases value with
    | dict metadata =>
      cases written
      cases writtenAgain
      simp [withoutTimes_put, pop_put_of_ne, pop_put_self]
    | _ => cases written

/-! ## Writes at another time -/

variable {clock : String → String}

/-- From states that differ in times alone a write gives such states. -/
theorem perform_again (later : String → String)
    {first second next : ProjectState Bytes} {write : Write} (same : SameButTimes first second)
    (performed : perform services clock first write = .ok next) :
    ∃ again, perform services later second write = .ok again ∧ SameButTimes next again := by
  have passes := perform_ok_iff.mp ⟨next, performed⟩
  rw [same.manifest] at passes
  obtain ⟨again, performedAgain⟩ : ∃ again, perform services later second write = .ok again :=
    perform_ok_iff.mpr passes
  refine ⟨again, performedAgain, ?_⟩
  cases write with
  | script change =>
    obtain ⟨script, prepared, built⟩ := bind_eq_ok.mp performed
    obtain ⟨other, preparedAgain, builtAgain⟩ := bind_eq_ok.mp performedAgain
    cases built
    cases builtAgain
    refine { same with scripts := ?_ }
    intro filename
    simp only [Listing.get?_put]
    split
    · obtain ⟨fields, isDict, rfl⟩ := prepareScript_eq prepared
      obtain ⟨_, isDictAgain, rfl⟩ := prepareScript_eq preparedAgain
      cases isDict.symm.trans isDictAgain
      simp only [Option.map_some, untimed, withoutTimes_put]
      cases get fields "metadata" with
      | dict metadata =>
        by_cases created : has metadata "created_at" <;>
          by_cases status : has metadata "status" <;>
          simp [touchScriptMetadata, created, status, has_put, pop_put_of_ne, pop_put_self]
      | _ => rfl
    · exact same.scripts filename
  | draft change =>
    cases performed
    cases performedAgain
    refine { same with drafts := ?_ }
    simp only [same.drafts]
  | move move =>
    cases performed
    cases performedAgain
    refine { same with files := ?_ }
    simp only [same.files]
  | versions data =>
    cases performed
    cases performedAgain
    exact { same with versions := rfl }
  | project project =>
    obtain ⟨touched, written, built⟩ := bind_eq_ok.mp performed
    obtain ⟨other, writtenAgain, builtAgain⟩ := bind_eq_ok.mp performedAgain
    cases built
    cases builtAgain
    exact { same with project := touchMetadata_untimed written writtenAgain }
  | manifest plan =>
    simp only [perform, same.manifest] at performed performedAgain
    cases stored : second.manifest with
    | none =>
      rw [stored] at performed performedAgain
      cases performed
      cases performedAgain
      exact same
    | some manifest =>
      rw [stored] at performed performedAgain
      obtain ⟨replaced, committed, built⟩ := bind_eq_ok.mp performed
      obtain ⟨other, committedAgain, builtAgain⟩ := bind_eq_ok.mp performedAgain
      cases built
      cases builtAgain
      refine { same with manifest := ?_ }
      cases committed.symm.trans committedAgain
      rfl

variable {final : ProjectState Bytes}

theorem performAll_again (later : String → String) {writes : List Write}
    {first second : ProjectState Bytes} (same : SameButTimes first second)
    (performed : performAll services clock writes first = .ok final) :
    ∃ again, performAll services later writes second = .ok again ∧ SameButTimes final again := by
  unfold performAll at performed ⊢
  induction writes generalizing first second with
  | nil =>
    cases performed
    exact ⟨second, rfl, same⟩
  | cons write writes induction =>
    rw [foldlM_cons] at performed ⊢
    obtain ⟨next, isNext, rest⟩ := bind_eq_ok.mp performed
    obtain ⟨again, isAgain, sameNext⟩ := perform_again later same isNext
    obtain ⟨last, isLast, sameLast⟩ := induction sameNext rest
    exact ⟨last, bind_eq_ok.mpr ⟨again, isAgain, isLast⟩, sameLast⟩

/-! ## Renamings that can be run again -/

/-- A script, once written, has nothing to rewrite. -/
def ScriptSettles (services : Services) (rename : AssetRename) (change : ScriptChange) : Prop :=
  ∀ now written, prepareScript services now change = .ok written →
    ∃ again, scanScript services rename (change.filename, some written) =
      .ok again ∧ again.changes = 0

/-- A draft, once written, has nothing to rewrite. -/
def DraftSettles (services : Services) (rename : AssetRename) (change : DraftChange) : Prop :=
  ∃ again, scanDraft services rename (change.path, some change.payload) =
    .ok again ∧ again.changes = 0

/-- A moved file is not matched. -/
def FileSettles (services : Services) (rename : AssetRename) (move : Place × Place) : Prop :=
  ∀ directory ∈ migratedDirs rename.assetType,
    moveOf services.runtime rename directory move.2 = none

/-- No file is moved to where another one is moved from. -/
def MovesApart (moves : List (Place × Place)) : Prop :=
  ∀ first ∈ moves, ∀ second ∈ moves, first.2 ≠ second.1

/-- The claim of the asset has the path of its sheet, the old or the new
one. -/
def ClaimFollows (services : Services) (state : ProjectState Bytes) (rename : AssetRename) : Prop :=
  ∀ manifest, state.manifest = some manifest →
  ∀ key, assetSheetKey services.runtime rename.assetType rename.oldName = .ok key →
  ∀ claim, manifest.get? key = some claim →
    ∃ target, (sheetOf rename.assetType (renamedEntry services rename
        (bucketOf state.project rename.assetType))).nonemptyStr? = some target ∧
      (claim.artifactPath = target ∨ sheetOf rename.assetType (get
          (bucketOf state.project rename.assetType) rename.oldName) = .str claim.artifactPath)

/-- What makes a renaming of a known asset safe to run again. -/
structure Resumable (services : Services) (state : ProjectState Bytes)
    (rename : AssetRename) : Prop where
  /-- Where a history or a claim is renamed, more than the encoding changes. -/
  differ : (∃ history, renameResource services.runtime rename state.folders
      state.versions = .ok (some history)) ∨ (∃ rekey, planRekey services rename
        (bucketOf state.project rename.assetType) state.manifest = .ok (some rekey) ∧
          rekey.changed = true) →
    normalizeAssetName services.runtime rename.newName ≠
      normalizeAssetName services.runtime rename.oldName
  scripts : ∀ entry ∈ state.scripts.entries, ∀ change,
    scanScript services rename entry = .ok change → 0 < change.changes →
      ScriptSettles services rename change
  drafts : ∀ entry ∈ state.drafts.entries, ∀ change,
    scanDraft services rename entry = .ok change → 0 < change.changes →
      DraftSettles services rename change
  files : ∀ move ∈ matchingMoves services.runtime rename state.files,
    FileSettles services rename move
  snapshots : ∀ history, renameResource services.runtime rename state.folders
    state.versions = .ok (some history) → MovesApart history.moves
  claims : ClaimFollows services state rename

/-- A plan that the scan of the state gives, with what makes it safe to run
again. -/
structure Ready (services : Services) (request : RenameRequest)
    (state : ProjectState Bytes) (plan : RenamePlan) : Prop where
  isType : resolveAssetType services request.table = .ok plan.rename.assetType
  isClean : validateAssetName services.runtime request.newName = .ok plan.rename.newName
  resolved : resolveAssetKey services.runtime
    (bucketOf state.project plan.rename.assetType) request.oldName = some plan.rename.oldName
  planned : Planned services state plan
  differ : plan.history.isSome = true ∨ plan.rekey.any RekeyPlan.changed = true →
    normalizeAssetName services.runtime plan.rename.newName ≠
      normalizeAssetName services.runtime plan.rename.oldName
  scripts : ∀ change ∈ plan.scripts, ScriptSettles services plan.rename change
  drafts : ∀ change ∈ plan.drafts, DraftSettles services plan.rename change
  files : ∀ move ∈ plan.moves, FileSettles services plan.rename move
  snapshots : ∀ history, plan.history = some history → MovesApart history.moves
  claims : ClaimFollows services state plan.rename

/-- The second run ends in the final state, up to times. -/
def Completes (services : Services) (later : String → String)
    (request : RenameRequest) (crashed final : ProjectState Bytes) : Prop :=
  ∃ report, (renameAsset services later request false crashed).1 = .ok report ∧
    SameButTimes final (renameAsset services later request false crashed).2

variable {request : RenameRequest} {state : ProjectState Bytes}

theorem completes_of_scan (later : String → String)
    {found : Scan} (scanned : scan services state request = .ok found)
    (performed : performAll services clock found.writes state = .ok final) :
    Completes services later request state final := by
  obtain ⟨again, performedAgain, same⟩ := performAll_again later (.refl state) performed
  unfold Completes
  rw [renameAsset_of_scan scanned, execute_eq_ok_iff.mpr performedAgain]
  exact ⟨_, rfl, same⟩

variable {plan : RenamePlan}

theorem Ready.scan_eq (ready : Ready services request state plan) :
    scan services state request = .ok (.plan plan) := by
  have scanned : scanRename services state plan.rename = .ok plan :=
    scanRename_eq_ok_iff.mpr ⟨rfl, ready.planned⟩
  unfold scan
  refine bind_eq_ok.mpr ⟨_, ready.isType, bind_eq_ok.mpr ⟨_, ready.isClean, ?_⟩⟩
  rw [ready.resolved]
  exact bind_eq_ok.mpr ⟨plan, scanned, rfl⟩

theorem Ready.completes (later : String → String) (ready : Ready services request state plan)
    (performed : performAll services clock plan.writes state = .ok final) :
    Completes services later request state final :=
  completes_of_scan later ready.scan_eq performed

/-! ## The writes one by one -/

section Steps

variable {next : ProjectState Bytes}

section

variable (ready : Ready services request state plan)
include ready

theorem Ready.after_script {change : ScriptChange} {rest : List ScriptChange}
    (first : plan.scripts = change :: rest)
    (performed : perform services clock state (.script change) = .ok next) :
    Ready services request next { plan with scripts := rest } := by
  obtain ⟨written, prepared, built⟩ := bind_eq_ok.mp performed
  cases built
  have found := ready.planned.scripts
  rw [first] at found
  obtain ⟨name, old, computed, resumed⟩ := found.after_write
  have isName : change.filename = name := by
    simp only [scanScript, bind_eq_ok] at computed
    obtain ⟨_, _, _, _, built⟩ := computed
    cases built
    rfl
  obtain ⟨again, scanned, settled⟩ := ready.scripts change (first ▸ mem_cons_self) _ _ prepared
  rw [isName] at scanned ⊢
  refine { ready with
    planned := { ready.planned with scripts := ?_ }
    scripts := ?_ }
  · exact resumed _ again scanned (by simp [settled])
  · intro other member
    exact ready.scripts other (first ▸ mem_cons_of_mem _ member)

theorem Ready.after_draft {change : DraftChange} {rest : List DraftChange}
    (first : plan.drafts = change :: rest)
    (performed : perform services clock state (.draft change) = .ok next) :
    Ready services request next { plan with drafts := rest } := by
  cases performed
  have found := ready.planned.drafts
  rw [first] at found
  obtain ⟨name, old, computed, resumed⟩ := found.after_write
  have isName : change.path = name := by
    simp only [scanDraft] at computed
    repeat' split at computed
    · obtain ⟨_, _, built⟩ := bind_eq_ok.mp computed
      cases built
      rfl
    all_goals
      cases computed
      rfl
  obtain ⟨again, scanned, settled⟩ := ready.drafts change (first ▸ mem_cons_self)
  rw [isName] at scanned ⊢
  refine { ready with
    planned := { ready.planned with drafts := ?_ }
    drafts := ?_ }
  · exact resumed _ again scanned (by simp [settled])
  · intro other member
    exact ready.drafts other (first ▸ mem_cons_of_mem _ member)

theorem Ready.after_move {move : Place × Place} {rest : List (Place × Place)}
    (first : plan.moves = move :: rest)
    (performed : perform services clock state (.move move) = .ok next) :
    Ready services request next { plan with moves := rest } := by
  cases performed
  have planned := ready.planned.moves
  rw [first] at planned
  refine { ready with
    planned := { ready.planned with moves := ?_ }
    files := ?_ }
  · exact planAssetFileRenames_moveFile planned (ready.files move (first ▸ mem_cons_self))
  · intro other member
    exact ready.files other (first ▸ mem_cons_of_mem _ member)

end

theorem performAll_moves (moves : List (Place × Place)) (state : ProjectState Bytes) :
    performAll services clock (moves.map .move) state =
      .ok { state with files := moveFiles state.files moves } := by
  unfold performAll
  induction moves generalizing state with
  | nil => rfl
  | cons move moves induction => exact induction _

/-- Snapshots may be moved without the history being saved. -/
theorem Ready.after_snapshots {history : HistoryRename}
    {done : List (Place × Place)} (ready : Ready services request state plan)
    (noMoves : plan.moves = []) (isHistory : plan.history = some history)
    (inside : ∀ move ∈ done, move ∈ history.moves) :
    Ready services request
      { state with files := moveFiles state.files done } plan := by
  have planned := ready.planned.history
  have none := ready.planned.moves
  rw [isHistory] at planned
  rw [noMoves] at none
  refine { ready with planned := { ready.planned with moves := ?_ } }
  rw [noMoves]
  exact planAssetFileRenames_snapshots planned inside none

theorem Ready.after_versions {history : HistoryRename} (ready : Ready services request state plan)
    (isHistory : plan.history = some history) :
    Ready services request { state with versions := some history.data }
      { plan with history := none } := by
  have planned := ready.planned.history
  rw [isHistory] at planned
  have differ := ready.differ (.inl (by rw [isHistory]; rfl))
  refine { ready with
    planned := { ready.planned with history := ?_ }
    differ := fun _ => differ
    snapshots := ?_ }
  · obtain ⟨_, bucket, isData⟩ := renameResource_eq_some planned
    simp only [renameResource, historyRecord, Option.getD_some, isData,
      bucketOf_put, resolveAssetKey_rekeyed_old differ]
  · intro other isOther
    cases isOther

end Steps

/-! ## The claim of an asset that is renamed already -/

section Claim

/-- The bucket that a planned renaming saves. -/
def renamedBucket (services : Services) (rename : AssetRename) (bucket : Fields) : Fields :=
  put (rekeyed services.runtime bucket rename.oldName rename.newName)
    rename.newName (renamedEntry services rename bucket)

theorem mem_keys_renamedBucket {rename : AssetRename} {bucket : Fields} {key : String}
    (member : key ∈ (renamedBucket services rename bucket).map Prod.fst) :
    key = rename.newName ∨ key ∈ bucket.map Prod.fst ∧ normalizeAssetName services.runtime key ≠
        normalizeAssetName services.runtime rename.oldName := by
  rcases mem_keys_put.mp member with isNew | kept
  · exact .inl isNew
  · obtain ⟨entry, listed, isKey⟩ := mem_keys_rekeyed kept
    unfold renamedKey at isKey
    split at isKey
    case isTrue => exact .inl isKey.symm
    case isFalse other =>
      subst isKey
      exact .inr ⟨mem_map_of_mem listed, other⟩

theorem Ready.old_gone (ready : Ready services request state plan)
    (claimed : plan.rekey.any RekeyPlan.changed = true) :
    resolveAssetKey services.runtime (renamedBucket services plan.rename
      (bucketOf state.project plan.rename.assetType)) request.oldName = none := by
  have same := (resolveAssetKey_eq_some ready.resolved).2
  rw [resolveAssetKey_eq_none_iff, ← same]
  intro key member
  rcases mem_keys_renamedBucket member with rfl | ⟨_, other⟩
  · exact ready.differ (.inr claimed)
  · exact other

theorem Ready.new_found (ready : Ready services request state plan)
    (claimed : plan.rekey.any RekeyPlan.changed = true) :
    resolveAssetKey services.runtime (renamedBucket services plan.rename
      (bucketOf state.project plan.rename.assetType)) plan.rename.newName =
        some plan.rename.newName := by
  have member : plan.rename.newName ∈ (renamedBucket services plan.rename
      (bucketOf state.project plan.rename.assetType)).map Prod.fst :=
    mem_keys_put.mpr (.inl rfl)
  obtain ⟨key, resolved⟩ := resolveAssetKey_isSome member
    (rfl : normalizeAssetName services.runtime _ = _)
  obtain ⟨listed, same⟩ := resolveAssetKey_eq_some resolved
  rcases mem_keys_renamedBucket listed with rfl | ⟨before, other⟩
  · exact resolved
  · -- another key that equals the new name would have been a conflict
    exfalso
    obtain ⟨conflict, found⟩ := resolveAssetKey_isSome before same
    have noConflict := ready.planned.noConflict
    simp only [checkConflict, found] at noConflict
    split at noConflict
    case isTrue isOld =>
      have sameOld := (resolveAssetKey_eq_some found).2
      rw [isOld] at sameOld
      exact ready.differ (.inr claimed) sameOld.symm
    case isFalse => cases noConflict

theorem sheetRewrite_self {target : String} {sheet : Json}
    (isSheet : sheet.nonemptyStr? = some target) :
    sheetRewrite (.str target) sheet = none := by
  cases sheet with
  | str text =>
    obtain ⟨nonempty, isText⟩ := Option.ite_none_left_eq_some.mp isSheet
    cases isText
    simp [sheetRewrite, nonemptyStr?, nonempty]
  | _ => cases isSheet

/-- The plan for the claim of a renaming that has saved `project.json` is the
one of the renaming itself. -/
theorem Ready.scanRecovery_eq {rekey : RekeyPlan} {saved : Fields}
    (ready : Ready services request state plan)
    (isRekey : plan.rekey = some rekey) (changed : rekey.changed = true)
    (bucket : bucketOf saved plan.rename.assetType = renamedBucket services plan.rename
        (bucketOf state.project plan.rename.assetType)) :
    scanRecovery services { state with project := saved } request
      plan.rename.assetType plan.rename.newName = .ok (.recovery rekey plan.rename.newName) := by
  have planned := ready.planned.rekey
  obtain ⟨manifest, stored⟩ : ∃ manifest, state.manifest = some manifest := by
    cases stored : state.manifest with
    | some manifest => exact ⟨manifest, rfl⟩
    | none => simp [stored, isRekey, planRekey] at planned
  rw [stored, isRekey] at planned
  obtain ⟨made, isMade, built⟩ := bind_eq_ok.mp planned
  cases built
  unfold planManifestRekey at isMade
  simp only [bind_eq_ok] at isMade
  obtain ⟨sourceKey, isSource, targetKey, isTarget, isMade⟩ := isMade
  obtain ⟨claim, claimed⟩ : ∃ claim, manifest.get? sourceKey = some claim := by
    cases claimed : manifest.get? sourceKey with
    | some claim => exact ⟨claim, rfl⟩
    | none =>
      unfold planEntryRekey at isMade
      obtain ⟨_, _, isMade⟩ := bind_eq_ok.mp isMade
      simp only [claimed] at isMade
      split at isMade
      · cases isMade
        cases changed
      · split at isMade <;> cases isMade
        cases changed
  obtain ⟨target, isSheet, follows⟩ := ready.claims manifest stored sourceKey isSource claim claimed
  have isSourceAgain := assetSheetKey_of_same isSource
    (resolveAssetKey_eq_some ready.resolved).2.symm
  have entry : get (renamedBucket services plan.rename
      (bucketOf state.project plan.rename.assetType)) plan.rename.newName =
        renamedEntry services plan.rename (bucketOf state.project plan.rename.assetType) := by
    simp [renamedBucket, get_put]
  simp only [scanRecovery, bucket, ready.new_found (by simp [isRekey, changed]), stored]
  refine bind_eq_ok.mpr ⟨sourceKey, isSourceAgain, ?_⟩
  simp only [entry, claimed, isSheet]
  refine bind_eq_ok.mpr ⟨rekey, bind_eq_ok.mpr ⟨sourceKey, isSourceAgain,
    bind_eq_ok.mpr ⟨targetKey, isTarget, ?_⟩⟩, rfl⟩
  rcases follows with already | isOld
  · -- the claim has the new path, so neither plan rewrites it
    rw [← already] at isSheet
    have unwritten : ∀ old new, nonemptyStr? new = some claim.artifactPath →
        rewriteClaim (sheetRewrite old new) claim = rewriteClaim none claim := by
      intro old new isNew
      simp only [sheetRewrite, isNew]
      cases nonemptyStr? old with
      | none => rfl
      | some path =>
        by_cases same : path = claim.artifactPath
        · simp [same, rewriteClaim]
        · simp [same, rewriteClaim, Ne.symm same]
    rw [sheetRewrite_self isSheet]
    unfold planEntryRekey at isMade ⊢
    obtain ⟨_, _, isMade⟩ := bind_eq_ok.mp isMade
    simp only [claimed, unwritten _ _ isSheet] at isMade ⊢
    exact isMade
  · rw [← isOld]
    exact isMade

theorem Ready.recovers {later : String → String} {rekey : RekeyPlan}
    {crashed final : ProjectState Bytes} (ready : Ready services request state plan)
    (isRekey : plan.rekey = some rekey) (changed : rekey.changed = true)
    (saved : perform services clock state (.project plan.project) = .ok crashed)
    (committed : perform services clock crashed (.manifest rekey) = .ok final) :
    Completes services later request crashed final := by
  obtain ⟨touched, written, built⟩ := bind_eq_ok.mp saved
  cases built
  have bucket : bucketOf touched plan.rename.assetType = renamedBucket services plan.rename
        (bucketOf state.project plan.rename.assetType) := by
    rw [bucketOf_touchMetadata written, mutateProject_eq ready.planned.mutated]
    exact bucketOf_put _ _ _
  have scanned : scan services { state with project := touched } request =
      .ok (.recovery rekey plan.rename.newName) := by
    unfold scan
    refine bind_eq_ok.mpr ⟨_, ready.isType, bind_eq_ok.mpr ⟨_, ready.isClean, ?_⟩⟩
    simp only [bucket, ready.old_gone (by simp [isRekey, changed])]
    exact ready.scanRecovery_eq isRekey changed bucket
  have performed : performAll services clock [.manifest rekey]
      { state with project := touched } = .ok final :=
    bind_eq_ok.mpr ⟨final, committed, rfl⟩
  exact completes_of_scan later scanned performed

end Claim

/-! ## Cut off anywhere -/

section Resume

variable {later : String → String} {crashed : ProjectState Bytes} {done left : List Write}

section

variable (ready : Ready services request state plan)
  (isWrites : plan.writes = done ++ left) (remaining : left ≠ [])
  (performed : performAll services clock done state = .ok crashed)
  (finished : performAll services clock left crashed = .ok final)
include ready

include isWrites remaining performed finished in
theorem Ready.resume_project (nothingEarly : plan.earlyWrites = []) :
    Completes services later request crashed final := by
  cases done with
  | nil =>
    cases performed
    rw [nil_append] at isWrites
    exact ready.completes later (isWrites ▸ finished)
  | cons write done =>
    rw [plan.writes_eq, nothingEarly] at isWrites
    obtain ⟨rfl, isRest⟩ := cons.inj isWrites
    unfold claimWrites at isRest
    split at isRest
    · cases remaining (append_eq_nil_iff.mp isRest.symm).2
    case h_2 rekey isRekey =>
      split at isRest
      case isTrue changed =>
        rcases singleton_eq_append_iff.mp isRest with
          ⟨rfl, rfl⟩ | ⟨rfl, rfl⟩
        · obtain ⟨middle, saved, rest⟩ := bind_eq_ok.mp performed
          cases rest
          obtain ⟨last, committed, rest⟩ := bind_eq_ok.mp finished
          cases rest
          exact ready.recovers isRekey changed saved committed
        · exact absurd rfl remaining
      case isFalse => cases remaining (append_eq_nil_iff.mp isRest.symm).2

theorem Ready.resume_snapshots {history : HistoryRename}
    (isHistory : plan.history = some history) (noMoves : plan.moves = [])
    {moved rest : List (Place × Place)} {after : List Write}
    (isMoves : history.moves = moved ++ rest)
    (isWrites : plan.writes = history.moves.map .move ++ after)
    (finished : performAll services clock (rest.map .move ++ after)
      { state with files := moveFiles state.files moved } = .ok final) :
    Completes services later request
      { state with files := moveFiles state.files moved } final := by
  have again : Ready services request
      { state with files := moveFiles state.files moved } plan := by
    refine ready.after_snapshots noMoves isHistory ?_
    intro move member
    rw [isMoves]
    exact mem_append_left _ member
  have apart := ready.snapshots history isHistory
  rw [isMoves] at apart
  have resumed : moveFiles (moveFiles state.files moved) (moved ++ rest) =
      moveFiles (moveFiles state.files moved) rest :=
    (moveFiles_resume apart).trans foldl_append
  rw [performAll_append, performAll_moves, ← resumed, ← isMoves] at finished
  have performed : performAll services clock plan.writes
      { state with files := moveFiles state.files moved } = .ok final := by
    rw [isWrites, performAll_append, performAll_moves]
    exact finished
  exact again.completes later performed

include isWrites remaining performed finished in
theorem Ready.resume_history {history : HistoryRename}
    (isHistory : plan.history = some history) (noScripts : plan.scripts = [])
    (noDrafts : plan.drafts = []) (noMoves : plan.moves = []) :
    Completes services later request crashed final := by
  have parts : plan.writes = history.moves.map .move ++
      .versions history.data :: .project plan.project :: plan.claimWrites := by
    simp [writes_eq, earlyWrites, noScripts, noDrafts, noMoves, isHistory]
  have split := isWrites
  rw [parts] at split
  rcases append_eq_append_iff.mp split with
    ⟨middle, rfl, isRest⟩ | ⟨middle, isMoves, rfl⟩
  · cases middle with
    | nil =>
      rw [append_nil, performAll_moves] at performed
      cases performed
      rw [nil_append] at isRest
      subst isRest
      exact ready.resume_snapshots isHistory noMoves (append_nil _).symm parts finished
    | cons write rest =>
      -- the history is saved
      obtain ⟨rfl, isTail⟩ := cons.inj isRest
      rw [performAll_append] at performed
      obtain ⟨_, moved, performed⟩ := bind_eq_ok.mp performed
      rw [performAll_moves] at moved
      cases moved
      have saved := (ready.after_snapshots noMoves isHistory
        (fun _ member => member)).after_versions isHistory
      have nothingEarly : { plan with history := none }.earlyWrites = [] := by
        simp [earlyWrites, noScripts, noDrafts, noMoves]
      refine saved.resume_project ?_ remaining performed finished nothingEarly
      rw [writes_eq, nothingEarly]
      exact isTail
  · obtain ⟨moved, rest, isHistoryMoves, rfl, rfl⟩ :=
      map_eq_append_iff.mp isMoves
    rw [performAll_moves] at performed
    cases performed
    exact ready.resume_snapshots isHistory noMoves isHistoryMoves parts finished

theorem Ready.after_write {write : Write} {rest : List Write}
    {next : ProjectState Bytes} (isWrites : plan.writes = write :: rest)
    (performed : perform services clock state write = .ok next) :
    (plan.scripts = [] ∧ plan.drafts = [] ∧ plan.moves = []) ∨
      ∃ again, Ready services request next again ∧ again.writes = rest := by
  unfold writes at isWrites
  rcases scripts : plan.scripts with _ | ⟨change, others⟩
  · rcases drafts : plan.drafts with _ | ⟨change, others⟩
    · rcases moves : plan.moves with _ | ⟨move, others⟩
      · exact .inl ⟨rfl, rfl, rfl⟩
      · simp only [scripts, drafts, moves, map_cons, map_nil,
          nil_append, cons_append, cons.injEq] at isWrites
        obtain ⟨rfl, isRest⟩ := isWrites
        refine .inr ⟨_, ready.after_move moves performed, ?_⟩
        simp only [writes, scripts, drafts, map_nil, nil_append]
        exact isRest
    · simp only [scripts, drafts, map_cons, map_nil,
        nil_append, cons_append, cons.injEq] at isWrites
      obtain ⟨rfl, isRest⟩ := isWrites
      refine .inr ⟨_, ready.after_draft drafts performed, ?_⟩
      simp only [writes, scripts, map_nil, nil_append]
      exact isRest
  · simp only [scripts, map_cons, cons_append, cons.injEq] at isWrites
    obtain ⟨rfl, isRest⟩ := isWrites
    exact .inr ⟨_, ready.after_script scripts performed, isRest⟩

include isWrites remaining performed finished in
/-- Whatever was written before the crash, the second run makes the writes
that are left. -/
theorem Ready.resume : Completes services later request crashed final := by
  -- by induction on the writes made, until only records are left
  induction done generalizing state plan with
  | nil =>
    cases performed
    rw [nil_append] at isWrites
    exact ready.completes later (isWrites ▸ finished)
  | cons write done induction =>
    obtain ⟨next, isNext, rest⟩ := bind_eq_ok.mp performed
    rcases ready.after_write isWrites isNext with
      ⟨scripts, drafts, moves⟩ | ⟨again, readyAgain, isRest⟩
    · cases history : plan.history with
      | some records =>
        exact ready.resume_history isWrites remaining performed finished
          history scripts drafts moves
      | none =>
        apply ready.resume_project isWrites remaining performed finished
        simp [earlyWrites, scripts, drafts, moves, history]
    · exact induction readyAgain isRest rest

end

end Resume

/-! ## Convergence -/

/-- What makes a renaming safe to run again. -/
def Recoverable (services : Services) (state : ProjectState Bytes)
    (request : RenameRequest) : Prop :=
  ∀ assetType, resolveAssetType services request.table = .ok assetType →
  ∀ newClean, validateAssetName services.runtime request.newName = .ok newClean →
  ∀ oldKey, resolveAssetKey services.runtime
    (bucketOf state.project assetType) request.oldName = some oldKey →
    Resumable services state ⟨assetType, oldKey, newClean⟩

/-- The project when the process stops after some of the durable steps, with
at least one left. -/
def stoppedAfter (services : Services) (clock : String → String)
    (request : RenameRequest) (steps : Nat) (state : ProjectState Bytes) :
    Option (ProjectState Bytes) :=
  match scan services state request with
  | .error _ => none
  | .ok found =>
    if steps < found.writes.length then
      (performAll services clock (found.writes.take steps) state).toOption
    else none

theorem ready_of_scan (scanned : scan services state request = .ok (.plan plan))
    (recoverable : Recoverable services state request) :
    Ready services request state plan := by
  obtain ⟨isType, isClean, resolved, planned⟩ := scan_eq_plan scanned
  have resumable : Resumable services state plan.rename := recoverable _ isType _ isClean _ resolved
  have isMoves := (planAssetFileRenames_ok_iff.mp planned.moves).1
  refine
    { isType := isType
      isClean := isClean
      resolved := resolved
      planned := planned
      differ := fun renamed => resumable.differ (renamed.imp ?_ ?_)
      scripts := planned.scripts.forall_mem_iff.mpr (by simpa using resumable.scripts)
      drafts := planned.drafts.forall_mem_iff.mpr (by simpa using resumable.drafts)
      files := isMoves ▸ resumable.files
      snapshots := ?_
      claims := resumable.claims }
  · intro isSome
    obtain ⟨history, isHistory⟩ := Option.isSome_iff_exists.mp isSome
    exact ⟨history, isHistory ▸ planned.history⟩
  · intro isChanged
    cases isRekey : plan.rekey with
    | none => simp [isRekey] at isChanged
    | some rekey => exact ⟨rekey, isRekey ▸ planned.rekey, by simpa [isRekey] using isChanged⟩
  · intro history isHistory
    exact resumable.snapshots history (isHistory ▸ planned.history)

/-- A renaming that would have succeeded and was cut off between two writes
succeeds when it is run again, and ends in the same project up to times. -/
theorem crashed_rename_converges {clock : String → String}
    (later : String → String) {request : RenameRequest}
    {state crashed : ProjectState Bytes} {report : AssetRenameReport} {steps : Nat}
    (succeeds : (renameAsset services clock request false state).1 = .ok report)
    (recoverable : Recoverable services state request)
    (stopped : stoppedAfter services clock request steps state = some crashed) :
    ∃ again, (renameAsset services later request false crashed).1 = .ok again ∧
      SameButTimes (renameAsset services clock request false state).2
        (renameAsset services later request false crashed).2 := by
  obtain ⟨found, scanned, inside, performed⟩ : ∃ found, scan services state request = .ok found ∧
      steps < found.writes.length ∧
      performAll services clock (found.writes.take steps) state = .ok crashed := by
    unfold stoppedAfter at stopped
    split at stopped
    · cases stopped
    · next found scanned =>
      obtain ⟨inside, stopped⟩ := Option.ite_none_right_eq_some.mp stopped
      refine ⟨found, scanned, inside, ?_⟩
      cases ran : performAll services clock (found.writes.take steps) state with
      | error raised => simp [ran, Except.toOption] at stopped
      | ok reached => simpa [ran, Except.toOption] using stopped
  have whole := performAll_of_renameAsset scanned succeeds
  have finished := whole
  rw [← take_append_drop steps found.writes, performAll_append, performed] at finished
  cases found with
  | plan planned =>
    refine (ready_of_scan scanned recoverable).resume
      (take_append_drop steps _).symm ?_ performed finished
    exact drop_eq_nil_iff.not.mpr (Nat.not_le_of_lt inside)
  | recovery rekey completed =>
    obtain rfl : steps = 0 := Nat.lt_one_iff.mp inside
    cases performed
    exact completes_of_scan later scanned whole

/-! ## A crash before the claim -/

/-- A character with a sheet and its claim. -/
def claimedSheet : ProjectState Unit :=
  { empty with
    files := empty.files.put ["characters", "A.png"] ()
    project := [("characters", .dict [("A", .dict [("character_sheet", .str "characters/A.png")])])]
    manifest := some (Dict.empty.put (.assetSheet .character "A")
      { artifactPath := "characters/A.png"
        basisDigest := "" }) }

theorem claimedSheet_recoverable : Recoverable permissive claimedSheet renameAToB := by
  intro assetType isType newClean isClean oldKey resolved
  obtain ⟨rfl, rfl, rfl⟩ := renameAToB_resolved isType isClean resolved (by decide +kernel)
  refine
    { differ := fun _ => by decide
      scripts := by simp [claimedSheet, empty]
      drafts := by simp [claimedSheet, empty]
      files := ?_
      snapshots := ?_
      claims := ?_ }
  · unfold FileSettles
    decide +kernel
  · intro history planned
    cases planned
  · intro manifest isManifest key isKey claim claimed
    cases isManifest
    have listed := Dict.get?_eq_some_iff.mp claimed
    cases mem_singleton.mp listed
    exact ⟨"characters/B.png", by decide +kernel, .inr rfl⟩

/-- The process stops after `project.json` and before the claim. -/
theorem crash_before_claim_converges :
    ∃ crashed, stoppedAfter permissive id renameAToB 2 claimedSheet = some crashed ∧
      ∃ again, (renameAsset permissive (fun _ => "later") renameAToB false crashed).1 = .ok again ∧
        SameButTimes (renameAsset permissive id renameAToB false claimedSheet).2
          (renameAsset permissive (fun _ => "later") renameAToB false crashed).2 := by
  obtain ⟨crashed, stopped⟩ := Option.isSome_iff_exists.mp
    (by decide +kernel : (stoppedAfter permissive id renameAToB 2 claimedSheet).isSome = true)
  obtain ⟨report, succeeds⟩ := exists_ok_of_isOk (by decide +kernel :
    (renameAsset permissive id renameAToB false claimedSheet).1.isOk = true)
  exact ⟨crashed, stopped, crashed_rename_converges _ succeeds claimedSheet_recoverable stopped⟩

/-! ## A file that is moved twice -/

/-- A product with a reference image. -/
def referencedProduct : ProjectState Unit :=
  { empty with
    files := empty.files.put ["products", "refs", "A.png"] ()
    project := [("products", .dict [("A", .dict
      [("reference_images", .list [.str "products/refs/A.png"])])])] }

/-- The new name is what a second image of the old one would be called. -/
def renameAToFirst : RenameRequest :=
  { table := "products"
    oldName := "A"
    newName := "A_1" }

/-- The process stops after the image was moved; the second run takes it for
the image number one of `A` and moves it again. -/
theorem crash_moves_image_twice : (∃ report, (renameAsset permissive id renameAToFirst false
      referencedProduct).1 = .ok report) ∧
    ∃ crashed, stoppedAfter permissive id renameAToFirst 1 referencedProduct = some crashed ∧
      (renameAsset permissive id renameAToFirst false crashed).2.files.get?
        ["products", "refs", "A_1.png"] = none ∧
      (renameAsset permissive id renameAToFirst false
        referencedProduct).2.files.get? ["products", "refs", "A_1.png"] = some () := by
  refine ⟨exists_ok_of_isOk (by decide +kernel), ?_⟩
  have again : (stoppedAfter permissive id renameAToFirst 1
      referencedProduct).map (fun crashed => (renameAsset permissive id
        renameAToFirst false crashed).2.files.get?
          ["products", "refs", "A_1.png"]) = some none := by
    decide +kernel
  obtain ⟨crashed, stopped, gone⟩ := Option.map_eq_some_iff.mp again
  exact ⟨crashed, stopped, gone, by decide +kernel⟩

end MatrixSpooll.Asset
