import MatrixSpooll.Asset.Rename

/-!
# Checks before the first write

A dry run makes every check of the scan.  Some checks are made only when a
document is written: the structure of a script, the episode in its file name,
the metadata of `project.json` and the paths of the manifest.  A renaming is
checked before it writes exactly when those pass as well.
-/

namespace MatrixSpooll.Asset

open Library List

variable {Bytes : Type} {services : Services}

/-! ## What a scan has found -/

/-- The changes that the scan of a listing finds. -/
def Finds {Name Node Change : Type} [LinearOrder Name]
    (compute : Name × Node → Except Raised Change)
    (changed : Change → Bool) (listing : Listing Name Node) (found : List Change) : Prop :=
  ∃ changes, listing.entries.mapM compute = .ok changes ∧ found = changes.filter changed

/-- What a planned renaming rests on. -/
structure Planned (services : Services) (state : ProjectState Bytes)
    (plan : RenamePlan) : Prop where
  noConflict : checkConflict services plan.rename
    (bucketOf state.project plan.rename.assetType) = .ok ()
  available : ensureProjectAssetNameAvailable services.runtime state.project
    plan.rename.newName plan.rename.assetType plan.rename.oldName = .ok ()
  scripts : Finds (scanScript services plan.rename)
    (fun change => 0 < change.changes) state.scripts plan.scripts
  drafts : Finds (scanDraft services plan.rename)
    (fun change => 0 < change.changes) state.drafts plan.drafts
  moves : planAssetFileRenames services.runtime plan.rename state.files
    state.folders = .ok plan.moves
  history : renameResource services.runtime plan.rename state.folders
    state.versions = .ok plan.history
  mutated : mutateProject services plan.rename state.project
    (bucketOf state.project plan.rename.assetType) = .ok plan.project
  rekey : planRekey services plan.rename
    (bucketOf state.project plan.rename.assetType) state.manifest = .ok plan.rekey

variable {state : ProjectState Bytes} {plan : RenamePlan}

theorem scanRename_eq_ok_iff {rename : AssetRename} : scanRename services state rename = .ok plan ↔
      plan.rename = rename ∧ Planned services state plan := by
  unfold scanRename
  simp only [bind_eq_ok]
  constructor
  · intro scanned
    obtain ⟨_, noConflict, _, available, scripts, scriptsOk, drafts, draftsOk,
      moves, movesOk, history, historyOk, mutated, mutatedOk, rekey, rekeyOk,
      built⟩ := scanned
    cases built
    exact ⟨rfl, noConflict, available, ⟨scripts, scriptsOk, rfl⟩,
      ⟨drafts, draftsOk, rfl⟩, movesOk, historyOk, mutatedOk, rekeyOk⟩
  · intro planned
    obtain ⟨rfl, planned⟩ := planned
    obtain ⟨scripts, scriptsOk, scriptsEq⟩ := planned.scripts
    obtain ⟨drafts, draftsOk, draftsEq⟩ := planned.drafts
    refine ⟨(), planned.noConflict, (), planned.available, scripts, scriptsOk,
      drafts, draftsOk, _, planned.moves, _, planned.history, _,
      planned.mutated, _, planned.rekey, ?_⟩
    rw [← scriptsEq, ← draftsEq]
    rfl

variable {project : Fields}

theorem mutateProject_eq {rename : AssetRename} {bucket mutated : Fields}
    (passed : mutateProject services rename project bucket = .ok mutated) :
    mutated = renamedProject services rename project bucket := by
  unfold mutateProject at passed
  simp only [bind_eq_ok] at passed
  obtain ⟨_, _, _, _, built⟩ := passed
  cases built
  rfl

theorem planManifestRekey_expects {assetType : AssetType}
    {manifest : Manifest} {sourceName targetName : String}
    {sourceSheet targetSheet : Json} {plan : RekeyPlan}
    (planned : planManifestRekey services assetType manifest sourceName
      targetName sourceSheet targetSheet = .ok plan) :
    ∀ expected ∈ plan.before, manifest.get? expected.1 = expected.2 := by
  unfold planManifestRekey planEntryRekey at planned
  simp only [bind_eq_ok] at planned
  obtain ⟨sourceKey, _, targetKey, _, _, _, planned⟩ := planned
  cases claim : manifest.get? sourceKey with
  | none =>
    simp only [claim] at planned
    split at planned
    · cases planned
      simp [RekeyPlan.unchanged]
    · split at planned <;> cases planned
      simp [RekeyPlan.unchanged]
  | some entry =>
    simp only [claim] at planned
    split at planned
    · cases planned
      simp [RekeyPlan.inPlace, claim]
    · split at planned <;> cases planned
      next free => simpa [RekeyPlan.moved, claim] using free

/-! ## The checks of the write phase -/

def ScriptPasses (services : Services) (change : ScriptChange) : Prop :=
  guardNoWorse services change.before change.script = .ok () ∧
    requireFilenameEpisodeConsistency services change.script
      change.filename = .ok () ∧
    ∃ fields, change.script = .dict fields

def MetadataWritable (project : Fields) : Prop :=
  ∀ value, project.lookup "metadata" = some value → ∃ metadata, value = .dict metadata

/-- No other claim has the path that the plan brings. -/
def ClaimsDistinct (services : Services) (plan : RekeyPlan) (manifest : Manifest) : Prop :=
  plan.changed → claimConflict services.runtime [] (plan.replaced manifest).rows = none

/-- The check that is made when a step is written. -/
def Passes (services : Services) (stored : Option Manifest) : Write → Prop
  | .script change => ScriptPasses services change
  | .project project => MetadataWritable project
  | .manifest plan => ∀ manifest, stored = some manifest →
      ∃ replaced, plan.commit services.runtime services.codec manifest = .ok replaced
  | _ => True

theorem prepareScript_ok_iff (now : String) {change : ScriptChange} :
    (∃ script, prepareScript services now change = .ok script) ↔ ScriptPasses services change := by
  unfold prepareScript ScriptPasses
  simp only [bind_eq_ok]
  constructor
  · intro prepared
    obtain ⟨script, _, guarded, _, consistent, built⟩ := prepared
    refine ⟨guarded, consistent, ?_⟩
    split at built
    case h_1 fields isDict => exact ⟨fields, isDict⟩
    case h_2 => cases built
  · intro passes
    obtain ⟨guarded, consistent, fields, isDict⟩ := passes
    rw [isDict] at guarded consistent ⊢
    exact ⟨_, (), guarded, (), consistent, rfl⟩

theorem touchMetadata_ok_iff (now : String) : (∃ touched, touchMetadata now project = .ok touched) ↔
      MetadataWritable project := by
  unfold touchMetadata MetadataWritable
  cases stored : project.lookup "metadata" with
  | none => simp
  | some value => cases value <;> simp

theorem bucketOf_touchMetadata {now : String} {touched : Fields}
    (written : touchMetadata now project = .ok touched) (assetType : AssetType) :
    bucketOf touched assetType = bucketOf project assetType := by
  have elsewhere : assetType.spec.bucketKey ≠ "metadata" := by
    cases assetType <;> decide
  have kept : ∀ value, bucketOf (Json.put project "metadata" value)
      assetType = bucketOf project assetType := by
    intro value
    simp [bucketOf, objectOf, Json.get_put, elsewhere]
  unfold touchMetadata at written
  split at written <;> cases written <;> exact kept _

variable {clock : String → String} {write : Write}

theorem exists_bind_ok_iff {Value Result : Type}
    {computed : Except Raised Value} (build : Value → Result) :
    (∃ result, (computed >>= fun value => pure (build value)) =
      .ok result) ↔ ∃ value, computed = .ok value := by
  cases computed <;> simp [bind, Except.bind, pure, Except.pure]

theorem perform_ok_iff : (∃ next, perform services clock state write = .ok next) ↔
      Passes services state.manifest write := by
  cases write with
  | script change => exact (exists_bind_ok_iff _).trans (prepareScript_ok_iff _)
  | draft _ | move _ | versions _ => exact ⟨fun _ => trivial, fun _ => ⟨_, rfl⟩⟩
  | project project => exact (exists_bind_ok_iff _).trans (touchMetadata_ok_iff _)
  | manifest plan =>
    rw [Passes, perform]
    cases stored : state.manifest with
    | none => simp [pure, Except.pure]
    | some manifest =>
      simp only [Option.some.injEq, forall_eq']
      exact exists_bind_ok_iff _

/-! ## The write phase -/

def Write.isManifest : Write → Bool
  | .manifest _ => true
  | _ => false

theorem perform_manifest {next : ProjectState Bytes}
    (performed : perform services clock state write = .ok next)
    (other : write.isManifest = false) : next.manifest = state.manifest := by
  cases write with
  | script _ | project _ =>
    obtain ⟨_, _, built⟩ := bind_eq_ok.mp performed
    cases built
    rfl
  | draft _ | move _ | versions _ =>
    cases performed
    rfl
  | manifest plan => cases other

variable {original : Fields}

/-- Writes run through exactly when the check of each one passes; the claim is
committed last. -/
theorem execute_ok_iff {writes : List Write}
    (ordered : writes.Pairwise (fun first _ => first.isManifest = false)) :
    (execute services clock original writes state).1 = .ok () ↔
      ∀ write ∈ writes, Passes services state.manifest write := by
  induction writes generalizing state with
  | nil => simp [execute]
  | cons write writes induction =>
    obtain ⟨first, rest⟩ := pairwise_cons.mp ordered
    rw [forall_mem_cons, ← perform_ok_iff]
    unfold execute
    cases performed : perform services clock state write with
    | error raised => simp
    | ok next =>
      rw [induction rest]
      refine (forall₂_congr ?_).trans (and_iff_right ⟨next, rfl⟩).symm
      intro later member
      rw [perform_manifest performed (first later member)]

/-- Everything before `project.json` and the manifest. -/
def RenamePlan.earlyWrites (plan : RenamePlan) : List Write :=
  plan.scripts.map .script ++ plan.drafts.map .draft ++ plan.moves.map .move ++
    (match plan.history with
      | none => []
      | some history => history.moves.map .move ++ [.versions history.data])

def RenamePlan.claimWrites (plan : RenamePlan) : List Write :=
  match plan.rekey with
  | none => []
  | some rekey => if rekey.changed then [.manifest rekey] else []

theorem RenamePlan.writes_eq (plan : RenamePlan) : plan.writes =
      plan.earlyWrites ++ [.project plan.project] ++ plan.claimWrites := rfl

theorem RenamePlan.mem_earlyWrites : write ∈ plan.earlyWrites →
      (∃ change ∈ plan.scripts, write = .script change) ∨
        (∀ services stored, Passes services stored write) ∧ write.isManifest = false := by
  intro member
  unfold earlyWrites at member
  simp only [mem_append, mem_map] at member
  rcases member with
    ((⟨change, listed, rfl⟩ | ⟨_, _, rfl⟩) | ⟨_, _, rfl⟩) | history
  · exact .inl ⟨change, listed, rfl⟩
  · exact .inr ⟨fun _ _ => trivial, rfl⟩
  · exact .inr ⟨fun _ _ => trivial, rfl⟩
  · split at history
    · cases history
    · simp only [mem_append, mem_map, mem_singleton] at history
      rcases history with ⟨move, _, rfl⟩ | rfl
      all_goals exact .inr ⟨fun _ _ => trivial, rfl⟩

theorem RenamePlan.writes_ordered (plan : RenamePlan) :
    plan.writes.Pairwise (fun first _ => first.isManifest = false) := by
  have early : ∀ write ∈ plan.earlyWrites ++ [.project plan.project], write.isManifest = false := by
    intro write member
    rcases mem_append.mp member with before | project
    · rcases mem_earlyWrites before with ⟨_, _, rfl⟩ | ⟨_, other⟩
      · rfl
      · exact other
    · cases mem_singleton.mp project
      rfl
  rw [writes_eq]
  apply pairwise_append.mpr
  refine ⟨?_, ?_, ?_⟩
  · rw [pairwise_iff_forall_sublist]
    intro first second inside
    exact early first (inside.subset mem_cons_self)
  · unfold claimWrites
    repeat' split
    all_goals simp
  · intro first member _ _
    exact early first member

theorem RenamePlan.writes_pass_iff {stored : Option Manifest} :
    (∀ write ∈ plan.writes, Passes services stored write) ↔
      (∀ change ∈ plan.scripts, ScriptPasses services change) ∧ MetadataWritable plan.project ∧
        ∀ rekey, plan.rekey = some rekey → rekey.changed →
          Passes services stored (.manifest rekey) := by
  rw [writes_eq]
  constructor
  · intro passes
    refine ⟨?_, ?_, ?_⟩
    · intro change member
      apply passes (.script change)
      simp [earlyWrites, member]
    · apply passes (.project plan.project)
      simp
    · intro rekey planned changed
      apply passes (.manifest rekey)
      simp [claimWrites, planned, changed]
  · intro checks write member
    obtain ⟨scripts, metadata, claims⟩ := checks
    rcases mem_append.mp member with front | claim
    · rcases mem_append.mp front with before | project
      · rcases mem_earlyWrites before with ⟨change, listed, rfl⟩ | ⟨always, _⟩
        · exact scripts change listed
        · exact always services stored
      · cases mem_singleton.mp project
        exact metadata
    · unfold claimWrites at claim
      repeat' split at claim
      · cases claim
      · next rekey planned changed =>
          cases mem_singleton.mp claim
          exact claims rekey planned changed
      · cases claim

/-- A plan that expects the stored manifest is committed exactly when the
claims stay distinct. -/
theorem commit_ok_iff {plan : RekeyPlan} {manifest : Manifest}
    (expects : ∀ expected ∈ plan.before, manifest.get? expected.1 = expected.2) :
    (∃ replaced, plan.commit services.runtime services.codec manifest =
      .ok replaced) ↔ ClaimsDistinct services plan manifest := by
  have matching : ¬∃ expected ∈ plan.before, manifest.get? expected.1 ≠ expected.2 := by
    intro mismatch
    obtain ⟨expected, member, different⟩ := mismatch
    exact different (expects expected member)
  unfold RekeyPlan.commit ClaimsDistinct
  rw [if_neg matching]
  cases plan.changed with
  | false => simp
  | true =>
    cases conflict : claimConflict services.runtime [] (plan.replaced manifest).rows with
    | none | some pair => simp

/-! ## Renaming -/

/-- What the dry run leaves to the writes of a planned renaming. -/
structure PlanChecks (services : Services) (state : ProjectState Bytes)
    (rename : AssetRename) : Prop where
  scripts : ∀ entry ∈ state.scripts.entries, ∀ change,
    scanScript services rename entry = .ok change → 0 < change.changes →
      ScriptPasses services change
  metadata : MetadataWritable state.project
  claims : ∀ manifest plan, state.manifest = some manifest →
    planRekey services rename (bucketOf state.project rename.assetType)
      (some manifest) = .ok (some plan) →
    ClaimsDistinct services plan manifest

/-- What the dry run leaves to the writes. -/
def WriteChecks (services : Services) (state : ProjectState Bytes)
    (request : RenameRequest) : Prop :=
  ∀ assetType, resolveAssetType services request.table = .ok assetType →
  ∀ newClean, validateAssetName services.runtime request.newName = .ok newClean →
    match resolveAssetKey services.runtime (bucketOf state.project assetType) request.oldName with
    | some oldKey => PlanChecks services state ⟨assetType, oldKey, newClean⟩
    | none => ∀ manifest plan completed, state.manifest = some manifest →
        scanRecovery services state request assetType newClean = .ok (.recovery plan completed) →
        ClaimsDistinct services plan manifest

/-- A dry run that succeeds announces a success, and a renaming that raises
has changed nothing. -/
structure CheckedFirst (services : Services) (clock : String → String)
    (request : RenameRequest) (state : ProjectState Bytes) : Prop where
  announced : ∀ report, (renameAsset services clock request true state).1 = .ok report →
      ∃ done, (renameAsset services clock request false state).1 = .ok done
  unchanged : ∀ raised, (renameAsset services clock request false state).1 = .error raised →
      (renameAsset services clock request false state).2 = state

theorem Finds.forall_mem_iff {Name Node Change : Type} [LinearOrder Name]
    {compute : Name × Node → Except Raised Change} {changed : Change → Bool}
    {listing : Listing Name Node} {found : List Change}
    (finds : Finds compute changed listing found) {holds : Change → Prop} :
    (∀ change ∈ found, holds change) ↔
      ∀ entry ∈ listing.entries, ∀ change, compute entry = .ok change →
        changed change = true → holds change := by
  obtain ⟨changes, computed, rfl⟩ := finds
  simp only [mem_filter, and_imp]
  have related := mapM_eq_ok_iff.mp computed
  clear computed
  generalize listing.entries = entries at related ⊢
  induction related with
  | nil => simp
  | cons isFirst _ induction =>
    rw [forall_mem_cons, forall_mem_cons]
    apply and_congr
    · simp [isFirst]
    · exact induction

theorem Planned.writes_pass_iff (planned : Planned services state plan) :
    (∀ write ∈ plan.writes, Passes services state.manifest write) ↔
      PlanChecks services state plan.rename := by
  have scripts : (∀ change ∈ plan.scripts, ScriptPasses services change) ↔
      ∀ entry ∈ state.scripts.entries, ∀ change,
        scanScript services plan.rename entry = .ok change →
          0 < change.changes → ScriptPasses services change := by
    rw [planned.scripts.forall_mem_iff]
    simp only [decide_eq_true_eq]
  have metadata : MetadataWritable plan.project ↔ MetadataWritable state.project := by
    unfold MetadataWritable
    rw [mutateProject_eq planned.mutated]
    unfold renamedProject
    rw [Json.lookup_put, if_neg]
    cases plan.rename.assetType <;> decide
  have claims : (∀ rekey, plan.rekey = some rekey → rekey.changed →
        Passes services state.manifest (.manifest rekey)) ↔
      ∀ manifest rekey, state.manifest = some manifest → planRekey services plan.rename
          (bucketOf state.project plan.rename.assetType) (some manifest) = .ok (some rekey) →
        ClaimsDistinct services rekey manifest := by
    cases stored : state.manifest with
    | none =>
      have planless : plan.rekey = none := by
        simpa [stored, planRekey] using planned.rekey.symm
      simp [planless]
    | some manifest =>
      have made := planned.rekey
      rw [stored] at made
      obtain ⟨rekey, isRekey, built⟩ := bind_eq_ok.mp made
      have isPlan : plan.rekey = some rekey := (Except.ok.inj built).symm
      have committed : (∃ replaced, rekey.commit services.runtime
            services.codec manifest = .ok replaced) ↔
          ClaimsDistinct services rekey manifest :=
        commit_ok_iff (planManifestRekey_expects isRekey)
      simp only [isPlan, Option.some.injEq, forall_eq', Passes, committed]
      constructor
      · intro distinct other plan isManifest isPlanned changed
        subst isManifest
        obtain rfl : rekey = plan := by
          simpa [isPlan] using made.symm.trans isPlanned
        exact distinct changed changed
      · intro distinct _
        exact distinct manifest rekey rfl (by rw [made, isPlan])
  rw [RenamePlan.writes_pass_iff, scripts, metadata, claims]
  exact ⟨fun ⟨scripts, metadata, claims⟩ => ⟨scripts, metadata, claims⟩,
    fun ⟨scripts, metadata, claims⟩ => ⟨scripts, metadata, claims⟩⟩

variable {request : RenameRequest} {found : Scan}

theorem scanRecovery_recovery {assetType : AssetType} {newClean : String}
    (scanned : scanRecovery services state request assetType newClean = .ok found) :
    ∃ manifest plan completed, state.manifest = some manifest ∧ found = .recovery plan completed ∧
      ∀ expected ∈ plan.before, manifest.get? expected.1 = expected.2 := by
  simp only [scanRecovery] at scanned
  split at scanned
  case h_1 completed manifest _ stored =>
    obtain ⟨sourceKey, _, scanned⟩ := bind_eq_ok.mp scanned
    split at scanned
    · obtain ⟨plan, planned, built⟩ := bind_eq_ok.mp scanned
      cases built
      exact ⟨manifest, plan, completed, stored, rfl, planManifestRekey_expects planned⟩
    · cases scanned
  case h_2 => cases scanned

theorem scan_eq_plan (scanned : scan services state request = .ok (.plan plan)) :
    resolveAssetType services request.table = .ok plan.rename.assetType ∧
      validateAssetName services.runtime request.newName = .ok plan.rename.newName ∧
      resolveAssetKey services.runtime
        (bucketOf state.project plan.rename.assetType) request.oldName = some plan.rename.oldName ∧
      Planned services state plan := by
  unfold scan at scanned
  obtain ⟨assetType, isType, scanned⟩ := bind_eq_ok.mp scanned
  obtain ⟨newClean, isClean, scanned⟩ := bind_eq_ok.mp scanned
  split at scanned
  case h_1 oldKey resolved =>
    obtain ⟨_, isPlan, built⟩ := bind_eq_ok.mp scanned
    cases built
    obtain ⟨isRename, planned⟩ := scanRename_eq_ok_iff.mp isPlan
    rw [isRename]
    exact ⟨isType, isClean, resolved, planned⟩
  case h_2 =>
    obtain ⟨_, _, _, _, isRecovery, _⟩ := scanRecovery_recovery scanned
    cases isRecovery

theorem scan_eq_recovery {rekey : RekeyPlan} {completedKey : String}
    (scanned : scan services state request = .ok (.recovery rekey completedKey)) :
    ∃ assetType, resolveAssetType services request.table = .ok assetType ∧
      resolveAssetKey services.runtime (bucketOf state.project assetType)
        request.oldName = none := by
  unfold scan at scanned
  obtain ⟨assetType, isType, scanned⟩ := bind_eq_ok.mp scanned
  obtain ⟨newClean, _, scanned⟩ := bind_eq_ok.mp scanned
  split at scanned
  case h_1 =>
    obtain ⟨_, _, built⟩ := bind_eq_ok.mp scanned
    cases built
  case h_2 missing => exact ⟨assetType, isType, missing⟩

/-- What a scan finds, and which checks it leaves to the writes. -/
theorem scan_eq_ok (scanned : scan services state request = .ok found) :
    (∃ plan, found = .plan plan ∧ Planned services state plan ∧
      (WriteChecks services state request ↔ PlanChecks services state plan.rename)) ∨
    (∃ manifest plan completed, state.manifest = some manifest ∧ found = .recovery plan completed ∧
      (∀ expected ∈ plan.before, manifest.get? expected.1 = expected.2) ∧
      (WriteChecks services state request ↔ ClaimsDistinct services plan manifest)) := by
  unfold scan at scanned
  obtain ⟨assetType, isType, scanned⟩ := bind_eq_ok.mp scanned
  obtain ⟨newClean, isClean, scanned⟩ := bind_eq_ok.mp scanned
  unfold WriteChecks
  simp only [isType, isClean, Except.ok.injEq, forall_eq']
  cases resolved : resolveAssetKey services.runtime
    (bucketOf state.project assetType) request.oldName with
  | some oldKey =>
    rw [resolved] at scanned
    obtain ⟨plan, planned, built⟩ := bind_eq_ok.mp scanned
    cases built
    obtain ⟨isRename, planned⟩ := scanRename_eq_ok_iff.mp planned
    refine .inl ⟨plan, rfl, planned, ?_⟩
    rw [isRename]
  | none =>
    simp only [resolved] at scanned
    obtain ⟨manifest, plan, completed, stored, rfl, expects⟩ := scanRecovery_recovery scanned
    refine .inr ⟨manifest, plan, completed, stored, rfl, expects, ?_⟩
    constructor
    · intro distinct
      exact distinct manifest plan completed stored scanned
    · intro distinct other otherPlan otherCompleted isManifest isScanned
      rw [scanned] at isScanned
      cases isScanned
      cases stored.symm.trans isManifest
      exact distinct

theorem returning_ok_iff {report : AssetRenameReport}
    {ran : Except Raised Unit × ProjectState Bytes} :
    (∃ done, (returning report ran).1 = .ok done) ↔ ran.1 = .ok () := by
  unfold returning
  cases ran.1 <;> simp [Except.map]

theorem returning_eq_ok {planned report : AssetRenameReport}
    {ran : Except Raised Unit × ProjectState Bytes}
    (returned : (returning planned ran).1 = .ok report) :
    report = planned := by
  unfold returning at returned
  cases outcome : ran.1 with
  | error raised => simp [outcome, Except.map] at returned
  | ok _ => simpa [outcome, Except.map, eq_comm] using returned

/-! ## A renaming as its writes -/

/-- The durable steps that a scan leads to. -/
def Scan.writes : Scan → List Write
  | .plan planned => planned.writes
  | .recovery rekey _ => [.manifest rekey]

/-- The durable steps up to an error. -/
def performAll (services : Services) (clock : String → String)
    (writes : List Write) (state : ProjectState Bytes) :
    Except Raised (ProjectState Bytes) :=
  writes.foldlM (perform services clock) state

theorem performAll_append (first second : List Write) (state : ProjectState Bytes) :
    performAll services clock (first ++ second) state = performAll services clock first state >>=
        performAll services clock second :=
  foldlM_append

theorem execute_eq_ok_iff {writes : List Write} {final : ProjectState Bytes} :
    execute services clock original writes state = (.ok (), final) ↔
      performAll services clock writes state = .ok final := by
  unfold performAll
  induction writes generalizing state with
  | nil => simp [execute, pure, Except.pure]
  | cons write writes induction =>
    rw [foldlM_cons]
    unfold execute
    cases perform services clock state write with
    | error raised => simp [bind, Except.bind]
    | ok next => exact induction

def Scan.report (services : Services) (request : RenameRequest) : Scan → AssetRenameReport
  | .plan planned => planned.report request false
  | .recovery _ completedKey => recoveryReport services request completedKey false

section

variable (scanned : scan services state request = .ok found)
include scanned

theorem renameAsset_of_scan : renameAsset services clock request false state =
      returning (found.report services request)
        (execute services clock state.project found.writes state) := by
  cases found <;> simp only [renameAsset, scanned] <;> rfl

theorem performAll_of_renameAsset {report : AssetRenameReport}
    (succeeds : (renameAsset services clock request false state).1 = .ok report) :
    performAll services clock found.writes state =
      .ok (renameAsset services clock request false state).2 := by
  rw [renameAsset_of_scan scanned] at succeeds ⊢
  have executed := returning_ok_iff.mp ⟨report, succeeds⟩
  exact execute_eq_ok_iff.mp (Prod.ext executed rfl)

/-! ## Checked first -/

/-- Where the scan succeeds, the renaming does exactly when the checks that
are left to the writes pass. -/
theorem renameAsset_ok_iff : (∃ done, (renameAsset services clock request false state).1 =
      .ok done) ↔ WriteChecks services state request := by
  rw [renameAsset_of_scan scanned, returning_ok_iff]
  rcases scan_eq_ok scanned with
    ⟨plan, rfl, planned, checks⟩ | ⟨manifest, plan, _, stored, rfl, expects, checks⟩
  · exact (execute_ok_iff plan.writes_ordered).trans (planned.writes_pass_iff.trans checks.symm)
  · refine (execute_ok_iff (pairwise_singleton _ _)).trans ?_
    rw [checks, ← commit_ok_iff expects]
    simp [Passes, stored]

end

/-- A renaming is checked before it writes exactly when the checks that are
left to the writes pass wherever the dry run succeeds. -/
theorem rename_checked_first_iff (services : Services)
    (clock : String → String) (request : RenameRequest) (state : ProjectState Bytes) :
    CheckedFirst services clock request state ↔ ((∃ report,
        (renameAsset services clock request true state).1 = .ok report) →
          WriteChecks services state request) := by
  cases scanned : scan services state request with
  | error raised =>
    have rejected : ∀ dryRun, renameAsset services clock request dryRun state =
          (.error raised, state) := by
      intro dryRun
      simp [renameAsset, scanned]
    constructor
    · intro _ dry
      obtain ⟨report, succeeded⟩ := dry
      simp [rejected] at succeeded
    · intro _
      exact ⟨by simp [rejected], fun _ _ => by rw [rejected]⟩
  | ok found =>
    have dry : ∃ report, (renameAsset services clock request true state).1 = .ok report := by
      cases found <;> simp [renameAsset, scanned]
    constructor
    · intro checked _
      obtain ⟨report, succeeded⟩ := dry
      exact (renameAsset_ok_iff scanned).mp (checked.announced report succeeded)
    · intro checks
      have succeeds := (@renameAsset_ok_iff _ _ _ clock _ _ scanned).mpr (checks dry)
      refine ⟨fun _ _ => succeeds, ?_⟩
      intro raised failed
      obtain ⟨done, succeeded⟩ := succeeds
      cases failed.symm.trans succeeded

/-! ## A check that comes too late -/

/-- Validators that accept everything. -/
def permissive : Services :=
  { runtime := .ascii
    codec :=
      { encodeKey := fun _ => ""
        pathError := fun _ => none }
    reprJson := Json.text (fun _ => "")
    validateProjectPayload := fun _ => []
    validateScriptStructure := fun _ => .ok []
    migrateScriptUnitDurations := id }

def ProjectState.empty : ProjectState Unit :=
  { scripts := ⟨[], .nil⟩
    drafts := ⟨[], .nil⟩
    files := ⟨[], .nil⟩
    folders := []
    versions := none
    project := []
    manifest := none }

/-- A script of an episode with the character `A`. -/
def scriptOfEpisode (episode : Int) : Json :=
  .dict [("episode", .int episode), ("segments", .list [.dict
    [("characters_in_segment", .list [.str "A"])]])]

/-- Two scripts; the second says that it is of another episode than its file
name. -/
def twoScripts : ProjectState Unit :=
  { ProjectState.empty with
    scripts := (ProjectState.empty.scripts.put "episode_1.json"
      (some (scriptOfEpisode 1))).put "episode_2.json" (some (scriptOfEpisode 3))
    project := [("characters", .dict [("A", .dict [])])] }

def renameAToB : RenameRequest :=
  { table := "characters"
    oldName := "A"
    newName := "B" }

theorem renameAToB_resolved {state : ProjectState Unit}
    {assetType : AssetType} {newClean oldKey : String}
    (isType : resolveAssetType permissive renameAToB.table = .ok assetType)
    (isClean : validateAssetName permissive.runtime renameAToB.newName = .ok newClean)
    (resolved : resolveAssetKey permissive.runtime
      (bucketOf state.project assetType) renameAToB.oldName = some oldKey)
    (isOld : resolveAssetKey permissive.runtime
      (bucketOf state.project .character) renameAToB.oldName = some "A") :
    assetType = .character ∧ newClean = "B" ∧ oldKey = "A" := by
  obtain rfl := toOption_eq_some (by decide +kernel :
    (resolveAssetType permissive renameAToB.table).toOption = some .character) isType
  have isB := toOption_eq_some (by decide +kernel :
    (validateAssetName permissive.runtime renameAToB.newName).toOption = some "B") isClean
  exact ⟨rfl, isB, Option.some.inj (resolved.symm.trans isOld)⟩

/-- The first name in the first segment of a script. -/
def firstCharacter (content : Option (Option Json)) : Option String :=
  match content with
  | some (some (.dict fields)) =>
    match Json.get fields "segments" with
    | .list (.dict segment :: _) =>
      match Json.get segment "characters_in_segment" with
      | .list (.str name :: _) => some name
      | _ => none
    | _ => none
  | _ => none

/-- The dry run succeeds; the renaming raises at the second script, when the
first is already written. -/
theorem late_check_leaves_first_script_renamed :
    (∃ report, (renameAsset permissive id renameAToB true twoScripts).1 = .ok report) ∧
    (∃ raised, (renameAsset permissive id renameAToB false twoScripts).1 = .error raised) ∧
    (renameAsset permissive id renameAToB false twoScripts).2.scripts.get?
      "episode_1.json" ≠ twoScripts.scripts.get? "episode_1.json" := by
  refine ⟨?_, ?_, ?_⟩
  · exact exists_ok_of_isOk (by decide +kernel)
  · exact exists_error_of_not_isOk (by decide +kernel)
  · intro same
    have renamed := congrArg firstCharacter same
    revert renamed
    decide +kernel

end MatrixSpooll.Asset
