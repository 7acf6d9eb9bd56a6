import MatrixSpooll.Asset.Records
import MatrixSpooll.Asset.References

/-!
# Renaming an asset

`rename_asset` scans scripts, drafts, files, version history, `project.json`
and the manifest for everything that carries the old name, and then writes
scripts, drafts, files, history, `project.json` and manifest in this order.  A
dry run ends after the scan.  Locks are held throughout, so nothing else
writes in between.
-/

namespace MatrixSpooll.Asset

open Library Json

/-! ## The project on disk -/

/-- The documents hold what their JSON decodes to, `none` if it does not. -/
structure ProjectState (Bytes : Type) where
  scripts : Listing String (Option Json)
  drafts : Listing Place (Option Json)
  files : Listing Place Bytes
  folders : List Place
  versions : Option Fields
  project : Fields
  manifest : Option Manifest

structure RenameRequest where
  table : String
  oldName : String
  newName : String

structure ValidationMessage where
  key : String
  params : Fields
  text : String

/-- Validators and migrations that the renaming calls. -/
structure Services where
  runtime : Runtime
  codec : ManifestCodec
  reprJson : Json → String
  validateProjectPayload : Fields → List ValidationMessage
  validateScriptStructure : Json → Except Raised (List String)
  migrateScriptUnitDurations : Json → Json

structure AssetRenameReport where
  table : String
  oldName : String
  newName : String
  episodes : Nat
  references : Nat
  files : Nat
  dryRun : Bool

variable {Bytes : Type} (services : Services)

/-! ## Scripts and drafts -/

structure ScriptChange where
  filename : String
  script : Json
  before : Json
  changes : Nat

def readScript (content : Option Json) : Except Raised Json :=
  match content with
  | none => .error
      { kind := .jsonDecodeError
        message := "" }
  | some script => .ok (services.migrateScriptUnitDurations script)

variable (rename : AssetRename) (project bucket : Fields)

/-- What the renaming changes in a script. -/
def scanScript (entry : String × Option Json) : Except Raised ScriptChange := do
  let script ← readScript services entry.2
  let rewritten ← rewritePayloadReferences services.runtime rename script
  return {
    filename := entry.1
    script := rewritten.1
    before := script
    changes := rewritten.2 }

def renameDraftFilenames : List String :=
  ["step1_normalized_script.json", "step1_segments.json",
    "step1_reference_units.json", "step1_reference_units.invalid.json",
    "step2_reference_script.invalid.json"]

/-- The drafts that are scanned. -/
def isRenameDraft : Place → Bool
  | [folder, file] => "episode_".toList.isPrefixOf folder.toList &&
      renameDraftFilenames.contains file
  | _ => false

structure DraftChange where
  path : Place
  payload : Json
  changes : Nat

/-- What the renaming changes in a draft; drafts that cannot be read are
passed over. -/
def scanDraft (entry : Place × Option Json) : Except Raised DraftChange :=
  match entry.2 with
  | some (.dict payload) =>
    if isRenameDraft entry.1 then do
      let rewritten ← rewritePayloadReferences services.runtime rename (.dict payload)
      return {
        path := entry.1
        payload := rewritten.1
        changes := rewritten.2 }
    else .ok ⟨entry.1, .dict payload, 0⟩
  | content => .ok ⟨entry.1, content.getD .null, 0⟩

/-! ## `project.json` -/

/-- The fold of `_rename_agnostic_errors`: the new name reads as the old
one. -/
def foldParam : Json → String
  | .str value =>
    if normalizeAssetName services.runtime value =
        normalizeAssetName services.runtime rename.newName then
      rename.oldName
    else replaceText ("[" ++ rename.newName ++ "]") ("[" ++ rename.oldName ++ "]") value
  | value => services.reprJson value

/-- The message without the name of the renamed asset. -/
def errorFingerprint (message : ValidationMessage) : String × List (String × String) :=
  (message.key, (message.params.map (fun param =>
    (param.1, foldParam services rename param.2))).insertionSort
      (fun first second => first.1 ≤ second.1))

/-- The texts of the errors that the renaming brings. -/
def newErrors (before after : Fields) : List String :=
  let known := (services.validateProjectPayload before).map (errorFingerprint services rename)
  (((services.validateProjectPayload after).filter (fun message =>
    errorFingerprint services rename message ∉ known)).map ValidationMessage.text).dedup

def parseProjectSchemaVersion : Except Raised Int :=
  match get project "schema_version" with
  | .null => .ok 0
  | .int version =>
    if version < 0 then
      .error (valueError ("schema_version must be an integer, got " ++
        services.reprJson (.int version)))
    else .ok version
  | value => .error (valueError ("schema_version must be an integer, got " ++
      services.reprJson value))

/-- The entry under the new name. -/
def renamedEntry : Json :=
  (rewriteEntry services.runtime rename (get
    (rekeyed services.runtime bucket rename.oldName rename.newName)
    rename.newName)).1

/-- `project.json` with the asset renamed. -/
def renamedProject : Fields :=
  put project rename.assetType.spec.bucketKey (.dict (put
    (rekeyed services.runtime bucket rename.oldName rename.newName)
    rename.newName (renamedEntry services rename bucket)))

/-- From schema version 6 on the names of all assets are distinct. -/
def checkNamespace : Except Raised Unit := do
  let version ← parseProjectSchemaVersion services project
  if 6 ≤ version then ensureProjectAssetNamespace services.runtime project
  else .ok ()

/-- The changed `project.json` with its checks. -/
def mutateProject : Except Raised Fields := do
  let mutated := renamedProject services rename project bucket
  checkNamespace services mutated
  let errors := newErrors services rename project mutated
  require (errors = []) (valueError ("project.json 结构校验失败: " ++
    "; ".intercalate (errors.insertionSort (· ≤ ·))))
  return mutated

/-! ## The manifest -/

/-- The path that changes with the sheet of the asset. -/
def sheetRewrite (sourceSheet targetSheet : Json) : Option (String × String) :=
  match sourceSheet.nonemptyStr?, targetSheet.nonemptyStr? with
  | some source, some target => if source = target then none else some (source, target)
  | _, _ => none

def planManifestRekey (assetType : AssetType) (manifest : Manifest)
    (sourceName targetName : String) (sourceSheet targetSheet : Json) :
    Except Raised RekeyPlan := do
  let sourceKey ← assetSheetKey services.runtime assetType sourceName
  let targetKey ← assetSheetKey services.runtime assetType targetName
  planEntryRekey services.codec manifest sourceKey targetKey (sheetRewrite sourceSheet targetSheet)

/-- `entry.get(spec.sheet_field) if isinstance(entry, Mapping) else None`. -/
def sheetOf (assetType : AssetType) : Json → Json
  | .dict entry => get entry assetType.spec.sheetField
  | _ => .null

/-! ## The scan -/

structure RenamePlan where
  rename : AssetRename
  scripts : List ScriptChange
  drafts : List DraftChange
  moves : List (Place × Place)
  history : Option HistoryRename
  project : Fields
  rekey : Option RekeyPlan

/-- A renaming is planned, or only the claim of a finished one is left. -/
inductive Scan where
  | plan (plan : RenamePlan)
  | recovery (rekey : RekeyPlan) (completedKey : String)

def resolveAssetType (table : String) : Except Raised AssetType :=
  match assetTypes.find? (fun assetType => assetType.spec.bucketKey = table) with
  | some assetType => .ok assetType
  | none => .error (valueError ("未知资产表: " ++ services.runtime.repr table ++
      "，须是 ['characters', 'products', 'props', 'scenes'] 之一"))

variable (state : ProjectState Bytes) (request : RenameRequest)

def renameNotFound (completed : Bool) : Raised :=
  { kind := .assetRenameNotFound
    message := request.table ++ " 中不存在名为 " ++
      services.runtime.repr request.oldName ++ " 的资产" ++ (if completed then
        "；新名已存在于资产表——可能上次重命名已成功（级联重命名可安全重试）"
      else "") }

def renameConflict (conflictName : String) : Raised :=
  { kind := .assetRenameConflict
    message := "目标名与既有资产 " ++ services.runtime.repr conflictName ++
      " 冲突（按 NFC 归一判定），请换一个名字或先处理既有资产" }

def recoveryReport (completedKey : String) (dryRun : Bool) : AssetRenameReport :=
  { table := request.table
    oldName := normalizeAssetName services.runtime request.oldName
    newName := completedKey
    episodes := 0
    references := 0
    files := 0
    dryRun := dryRun }

/-- The old name is gone: what is left of a renaming that was cut off. -/
def scanRecovery (assetType : AssetType) (newClean : String) : Except Raised Scan :=
  let bucket := bucketOf state.project assetType
  match resolveAssetKey services.runtime bucket newClean, state.manifest with
  | some completedKey, some manifest => do
      let oldName := normalizeAssetName services.runtime request.oldName
      let sourceKey ← assetSheetKey services.runtime assetType oldName
      let targetSheet := sheetOf assetType (get bucket completedKey)
      match manifest.get? sourceKey, targetSheet.nonemptyStr? with
      | some claim, some _ =>
        let rekey ← planManifestRekey services assetType manifest oldName
          completedKey (.str claim.artifactPath) targetSheet
        return .recovery rekey completedKey
      | _, _ => .error (renameNotFound services request true)
  | completed, _ => .error (renameNotFound services request completed.isSome)

variable (rename : AssetRename)

/-- Another asset of the bucket has the new name. -/
def checkConflict (bucket : Fields) : Except Raised Unit :=
  match resolveAssetKey services.runtime bucket rename.newName with
  | some conflictKey =>
    if conflictKey = rename.oldName then .ok ()
    else .error (renameConflict services conflictKey)
  | none => .ok ()

/-- The plan for the claim of the asset, if there is a manifest. -/
def planRekey (bucket : Fields) : Option Manifest → Except Raised (Option RekeyPlan)
  | none => .ok none
  | some manifest => do
      let plan ← planManifestRekey services rename.assetType manifest rename.oldName rename.newName
        (sheetOf rename.assetType (get bucket rename.oldName))
        (sheetOf rename.assetType (renamedEntry services rename bucket))
      return some plan

/-- The checks and the scan of a renaming of a known asset. -/
def scanRename : Except Raised RenamePlan := do
  let bucket := bucketOf state.project rename.assetType
  checkConflict services rename bucket
  ensureProjectAssetNameAvailable services.runtime state.project
    rename.newName rename.assetType rename.oldName
  let scripts ← state.scripts.entries.mapM (scanScript services rename)
  let drafts ← state.drafts.entries.mapM (scanDraft services rename)
  let moves ← planAssetFileRenames services.runtime rename state.files state.folders
  let history ← renameResource services.runtime rename state.folders state.versions
  let mutated ← mutateProject services rename state.project bucket
  let rekey ← planRekey services rename bucket state.manifest
  return {
    rename := rename
    scripts := scripts.filter (fun change => 0 < change.changes)
    drafts := drafts.filter (fun change => 0 < change.changes)
    moves := moves
    history := history
    project := mutated
    rekey := rekey }

/-- Everything `rename_asset` does before it writes. -/
def scan : Except Raised Scan := do
  let assetType ← resolveAssetType services request.table
  let newClean ← validateAssetName services.runtime request.newName
  match resolveAssetKey services.runtime (bucketOf state.project assetType) request.oldName with
  | some oldKey =>
    let plan ← scanRename services state ⟨assetType, oldKey, newClean⟩
    return .plan plan
  | none => scanRecovery services state request assetType newClean

def RenamePlan.report (plan : RenamePlan) (request : RenameRequest)
    (dryRun : Bool) : AssetRenameReport :=
  { table := request.table
    oldName := plan.rename.oldName
    newName := plan.rename.newName
    episodes := (plan.scripts.map (fun change => fileStem change.filename) ++
      plan.drafts.map (fun change => change.path.headD "")).dedup.length
    references := (plan.scripts.map ScriptChange.changes).sum +
      (plan.drafts.map DraftChange.changes).sum
    files := plan.moves.length + (plan.history.map HistoryRename.count).getD 0
    dryRun := dryRun }

/-! ## The writes -/

/-- A durable step of the write phase. -/
inductive Write where
  | script (change : ScriptChange)
  | draft (change : DraftChange)
  | move (move : Place × Place)
  | versions (data : Fields)
  | project (project : Fields)
  | manifest (plan : RekeyPlan)

def guardNoWorse (before after : Json) : Except Raised Unit := do
  let errors ← services.validateScriptStructure after
  if errors = [] then return ()
  let known ← services.validateScriptStructure before
  let message := "; ".intercalate errors
  require (known ≠ [])
    { kind := .scriptStructureValidation
      message := if message = "" then "script structure invalid"
        else message }

/-- A letter of a pattern that is matched without regard to case. -/
def matchesLetter (letter char : Char) : Bool :=
  char.toLower = letter || (letter = 's' && char.toNat = 0x17F) ||
    (letter = 'i' && (char.toNat = 0x130 || char.toNat = 0x131))

def startsWithLetters : Text → Text → Option Text
  | [], text => some text
  | _ :: _, [] => none
  | letter :: letters, char :: text =>
    if matchesLetter letter char then startsWithLetters letters text
    else none

/-- The number after `episode` in a file name: the first match of
`episode[-_\s]*(\d+)`. -/
def filenameEpisode (runtime : Runtime) : Text → Option Nat
  | [] => none
  | char :: rest =>
    let digits := (startsWithLetters "episode".toList (char :: rest)).map
      (fun text => (text.dropWhile (fun char =>
        char = '-' || char = '_' || isSpace char)).takeWhile (fun char =>
          (runtime.decimal char).isSome))
    match digits with
    | some (digit :: others) =>
      some ((digit :: others).foldl (fun number char =>
        10 * number + (runtime.decimal char).getD 0) 0)
    | _ => filenameEpisode runtime rest

/-- An `int` of the source language, which a `bool` is as well. -/
def asPythonInt? : Json → Option Int
  | .int value => some value
  | .bool value => some (if value then 1 else 0)
  | _ => none

def requireFilenameEpisodeConsistency (script : Json) (filename : String) : Except Raised Unit :=
  match filenameEpisode services.runtime filename.toList, script with
  | none, _ => .ok ()
  | some number, .dict fields =>
    match asPythonInt? (get fields "episode") with
    | none => .ok ()
    | some episode =>
      if episode = number then .ok ()
      else .error (valueError ("脚本 " ++ filename ++ " 内部 episode=" ++
        services.reprJson (get fields "episode") ++
        " 与文件名隐含的 episode=" ++ toString number ++
        " 不一致，拒绝操作以避免污染 project.json"))
  | some _, script => .error (noAttributeGet script)

/-- The metadata that `_write_script_unlocked` writes. -/
def touchScriptMetadata (now : String) (metadata : Json) : Fields :=
  let fields := match metadata with
    | .dict fields => fields
    | _ => []
  let created := if has fields "created_at" then fields
    else put fields "created_at" (.str now)
  let status := if has created "status" then created
    else put created "status" (.str "draft")
  put status "updated_at" (.str now)

/-- `_write_script_unlocked` up to the write itself. -/
def prepareScript (now : String) (change : ScriptChange) : Except Raised Json := do
  guardNoWorse services change.before change.script
  requireFilenameEpisodeConsistency services change.script change.filename
  match change.script with
  | .dict fields => return .dict (put fields "metadata"
      (.dict (touchScriptMetadata now (get fields "metadata"))))
  | script => throw (noAttributeGet script)

def touchMetadata (now : String) (project : Fields) : Except Raised Fields :=
  match project.lookup "metadata" with
  | none => .ok (put project "metadata"
      (.dict [("created_at", .str now), ("updated_at", .str now)]))
  | some (.dict metadata) => .ok (put project "metadata"
      (.dict (put metadata "updated_at" (.str now))))
  | some (.list _) => .error
      { kind := .typeError
        message := "list indices must be integers or slices, not str" }
  | some value => .error
      { kind := .typeError
        message := "'" ++ value.typeName ++ "' object does not support item assignment" }

/-- One durable step; the clock gives the time at which a document is
written. -/
def perform (clock : String → String) (state : ProjectState Bytes) :
    Write → Except Raised (ProjectState Bytes)
  | .script change => do
      let script ← prepareScript services (clock change.filename) change
      return { state with
        scripts := state.scripts.put change.filename (some script) }
  | .draft change => return { state with
      drafts := state.drafts.put change.path (some change.payload) }
  | .move move => return { state with files := moveFile state.files move }
  | .versions data => return { state with versions := some data }
  | .project project => do
      let touched ← touchMetadata (clock "project.json") project
      return { state with project := touched }
  | .manifest plan =>
    match state.manifest with
    | none => return state
    | some manifest => do
        let replaced ← plan.commit services.runtime services.codec manifest
        return { state with manifest := some replaced }

/-- `formal_write_transaction`: a claim that cannot be committed takes the
write of `project.json` back. -/
def afterFailure (original : Fields) (state : ProjectState Bytes) : Write → ProjectState Bytes
  | .manifest _ => { state with project := original }
  | _ => state

def execute (clock : String → String) (original : Fields) :
    List Write → ProjectState Bytes → Except Raised Unit × ProjectState Bytes
  | [], state => (.ok (), state)
  | write :: rest, state =>
    match perform services clock state write with
    | .ok next => execute clock original rest next
    | .error raised => (.error raised, afterFailure original state write)

def RenamePlan.writes (plan : RenamePlan) : List Write :=
  plan.scripts.map .script ++ plan.drafts.map .draft ++ plan.moves.map .move ++
    (match plan.history with
      | none => []
      | some history => history.moves.map .move ++ [.versions history.data]) ++
    [.project plan.project] ++ (match plan.rekey with
      | none => []
      | some rekey => if rekey.changed then [.manifest rekey] else [])

/-- The report, if nothing was raised. -/
def returning (report : AssetRenameReport) (ran : Except Raised Unit × ProjectState Bytes) :
    Except Raised AssetRenameReport × ProjectState Bytes :=
  (ran.1.map (fun _ => report), ran.2)

def renameAsset (clock : String → String) (request : RenameRequest)
    (dryRun : Bool) (state : ProjectState Bytes) :
    Except Raised AssetRenameReport × ProjectState Bytes :=
  match scan services state request with
  | .error raised => (.error raised, state)
  | .ok (.recovery rekey completedKey) =>
    let report := recoveryReport services request completedKey dryRun
    if dryRun then (.ok report, state)
    else returning report (execute services clock state.project [.manifest rekey] state)
  | .ok (.plan plan) =>
    if dryRun then (.ok (plan.report request dryRun), state)
    else returning (plan.report request dryRun)
      (execute services clock state.project plan.writes state)

end MatrixSpooll.Asset
