import MatrixSpooll.Script.Editor

/-!
# Batch edits of a script

A command carries operations that are applied in order to a candidate.  The
candidate is checked as a whole, and it replaces the stored script only if
every operation and every check went through.  What the checks look at beyond
the candidate is a parameter: the speech admission of an item, the structural
and the project validation, the manifest and the write itself.
-/

namespace MatrixSpooll.Script

open Library Json

inductive ScriptBatchOperation where
  | update (id : String) (fields : Fields)
  | insertAfter (afterId : Option String) (item : Fields)
  | moveAfter (id : String) (afterId : Option String)
  | remove (id : String)

structure ScriptBatchEditCommand where
  episode : Option Int
  expectedRevision : String
  operations : List ScriptBatchOperation

structure ScriptBatchEditLocation where
  path : List PathPart
  line : Option Int := none
deriving DecidableEq

structure ScriptBatchEditProblem where
  code : String
  operationIndex : Option Nat
  unitId : Option String
  locations : List ScriptBatchEditLocation
  reason : String
  nextAction : String

structure ScriptBatchEditResult where
  success : Bool
  script : String
  episode : Option Int
  beforeRevision : String
  revision : String
  affectedIds : List String
  problems : List ScriptBatchEditProblem

/-! ## Speech admission -/

inductive SpeechProblemCode where
  | mixedSpeech
  | needsReplan
  | parseFailed
  | emptySpeaker
deriving DecidableEq

def SpeechProblemCode.value : SpeechProblemCode → String
  | .mixedSpeech => "mixed_speech"
  | .needsReplan => "needs_replan"
  | .parseFailed => "parse_failed"
  | .emptySpeaker => "empty_speaker"

inductive SpeechProblemReason where
  | characterAndNarratorMixed
  | unitMarkedNeedsReplan
  | speechInputUnparseable
  | characterSpeakerEmpty
deriving DecidableEq

def SpeechProblemReason.value : SpeechProblemReason → String
  | .characterAndNarratorMixed => "character_and_narrator_mixed"
  | .unitMarkedNeedsReplan => "unit_marked_needs_replan"
  | .speechInputUnparseable => "speech_input_unparseable"
  | .characterSpeakerEmpty => "character_speaker_empty"

inductive SpeechProblemAction where
  | replanUnit
  | fixInput
  | assignSpeaker
deriving DecidableEq

def SpeechProblemAction.value : SpeechProblemAction → String
  | .replanUnit => "replan_unit"
  | .fixInput => "fix_input"
  | .assignSpeaker => "assign_speaker"

structure SpeechProblem where
  code : SpeechProblemCode
  unitId : String
  locations : List ScriptBatchEditLocation
  reason : SpeechProblemReason
  action : SpeechProblemAction
deriving DecidableEq

inductive SpeechOwner where
  | character
  | narrator
deriving DecidableEq

inductive SpeechMode where
  | characterSpeech
  | narratorVoiceover
  | silent
deriving DecidableEq

structure SpeechUtterance where
  owner : SpeechOwner
  text : String
  speaker : Option String
  location : ScriptBatchEditLocation
deriving DecidableEq

/-- The admission of one item. -/
structure SpeechPreparation where
  unitId : String
  mode : Option SpeechMode
  utterances : List SpeechUtterance
  problems : List SpeechProblem
deriving DecidableEq

def SpeechPreparation.allowed (preparation : SpeechPreparation) : Bool :=
  preparation.problems.isEmpty

/-- An operation fails with an edit error or with another exception. -/
inductive OperationFailure where
  | edit (error : ScriptEditError)
  | crashed

structure ValidationMessage where
  key : String
  blamed : Option String
  field : Option String
  rendered : String

inductive ManifestOutcome where
  | ready
  | migration (violation : String)
  | unavailable
  | crashed

inductive CommitOutcome where
  | written
  | migration (violation : String)
  | crashed

/-- Everything the editor asks for beyond the command and the script; the
project is fixed under its lock. -/
structure Services where
  runtime : Runtime
  migrationVerdict : Option String
  admitScriptUnit : SkeletonKind → Fields → Except OperationFailure SpeechPreparation
  deriveReferences : String → List Json
  validateScriptStructure : EpisodeScript → Option ValidationMessage
  validateEpisodePayload : EpisodeScript → List ValidationMessage
  prepareManifestCommit : EpisodeScript → List String → List String → ManifestOutcome
  commit : EpisodeScript → CommitOutcome
  scriptRevision : EpisodeScript → String
  filenameEpisode : String → Option Int
  now : String

section Model

variable (services : Services)

variable (items : List Json) (idField : String) (kind : SkeletonKind) (editing : Editing)

/-- Admission of the content alone. -/
def admitContent (fields : Fields) : Except OperationFailure SpeechPreparation :=
  services.admitScriptUnit kind (pop fields "needs_replan")

def lift {Result : Type} : Except ScriptEditError Result → Except OperationFailure Result
  | .ok result => .ok result
  | .error error => .error (.edit error)

/-- An edit error with the place in the operation. -/
def blame {Result : Type} (location : List PathPart) (text : String → String) :
    Except ScriptEditError Result → Except OperationFailure Result
  | .ok result => .ok result
  | .error error => .error (.edit
      { message := text error.message
        location := some location })

def itemNotFound (itemId : String) : ScriptEditError :=
  { message := "item not found: " ++ itemId }

def findItem (itemId : String) : Except ScriptEditError Nat :=
  match findIndex services.runtime items idField itemId with
  | some index => .ok index
  | none => .error (itemNotFound itemId)

def admissionFor (script : EpisodeScript) (itemId : String) :
    Except OperationFailure (Option SpeechPreparation) := do
  let (items, kind) ← lift (resolveItems script)
  match findIndex services.runtime items kind.idField itemId with
  | none => return none
  | some index =>
    let admission ← services.admitScriptUnit kind (fieldsAt items index)
    return some admission

/-! ## Video units -/

def shotText : Json → Option String
  | .dict fields =>
    let text := get fields "text"
    some (if text.isTrue then services.runtime.str text else "")
  | _ => none

/-- Derive the references of a unit from its shots, if they are a list. -/
def rederiveVideoUnitReferences (fields : Fields) : Fields :=
  match get fields "shots" with
  | .list shots =>
    let text := String.intercalate "\n" (shots.filterMap (shotText services))
    put fields "references" (.list (services.deriveReferences text))
  | _ => fields

def isJsonTrue : Json → Bool
  | .bool true => true
  | _ => false

def positiveInt : Json → Bool
  | .int value => 0 < value
  | _ => false

/-- A rewritten body consumes the marker a migration has left. -/
def consumeMigrationMarker (contentChanged : Bool) (fields : Fields) : Fields :=
  if contentChanged then pop fields "migration_requires_content_replan"
  else fields

def refreshVideoUnitReplanState (allowClear contentChanged : Bool)
    (fields : Fields) : Except OperationFailure Fields := do
  let unit := consumeMigrationMarker contentChanged fields
  let marked := put unit "needs_replan" (.bool true)
  if isJsonTrue (get unit "migration_requires_content_replan") then
    return marked
  if !(get unit "shots").isTrue || !positiveInt (get unit "duration_seconds") then
    return marked
  let preparation ← admitContent services .videoUnits unit
  if !preparation.problems.isEmpty then return marked
  return if allowClear then pop unit "needs_replan" else unit

/-! ## Operations -/

/-- Runs of characters between dots and brackets; an index in brackets reads
like a name made of digits. -/
def parsePath (value : String) : List PathPart :=
  let dotted := (value.replace ": " ".").replace ":" "."
  let runs := (dotted.toList.splitOnP (fun char => char = '.' || char = '[' || char = ']')).filter
      (fun run => !run.isEmpty)
  runs.map (fun run =>
    let name := String.ofList run
    if services.runtime.isDecimal name then
      .index (services.runtime.parseInt name)
    else .name name)

/-- The script and the items removed so far. -/
structure Editing where
  script : EpisodeScript
  removedItems : Dict String Fields

/-- The item an operation touched, with its admission before and after. -/
structure Touched where
  itemId : String
  before : Option SpeechPreparation
  after : Option SpeechPreparation

def patchFields (itemId : String) : Fields → EpisodeScript → Except OperationFailure EpisodeScript
  | [], script => .ok script
  | (field, value) :: rest, script => do
      let patched ← blame (.name "fields" :: parsePath services field)
        (fun message => field ++ ": " ++ message)
        (patchField services.runtime script itemId field value)
      patchFields itemId rest patched

/-- The first name of a field path. -/
def rootOf (field : String) : String :=
  (dotParts field).headD ""

/-- What an update does to a unit behind the fields it sets. -/
def settleVideoUnit (roots : List String) (previous fields : Fields) :
    Except OperationFailure Fields := do
  let differs (key : String) : Bool := !services.runtime.equal (get fields key) (get previous key)
  let bodyChanged := "shots" ∈ roots && differs "shots"
  let derived := if bodyChanged && !("references" ∈ roots : Bool) then
      rederiveVideoUnitReferences services fields
    else fields
  let referencesChanged := "references" ∈ roots && differs "references"
  if "shots" ∈ roots ∨ "references" ∈ roots ∨ "duration_seconds" ∈ roots then
    refreshVideoUnitReplanState services
      (bodyChanged || referencesChanged || "duration_seconds" ∈ roots)
      bodyChanged derived
  else return derived

/-- What an update does to an item that is no video unit. -/
def settleItem (before : SpeechPreparation) (fields : Fields) : Except OperationFailure Fields := do
  let after ← admitContent services kind fields
  return if after ≠ before ∧ after.allowed then
      pop fields "needs_replan"
    else fields

def settleUpdated (roots : List String) (before : SpeechPreparation)
    (previous fields : Fields) : Except OperationFailure Fields :=
  if kind = .videoUnits then settleVideoUnit services roots previous fields
  else settleItem services kind before fields

def applyUpdate (itemId : String) (fields : Fields) :
    Except OperationFailure (Editing × Touched) := do
  let before ← admissionFor services editing.script itemId
  let (items, kind) ← lift (resolveItems editing.script)
  let index ← blame [.name "id"] id (findItem services items kind.idField itemId)
  let previous := fieldsAt items index
  let beforeContent ← admitContent services kind previous
  let patched ← patchFields services itemId fields editing.script
  let (patchedItems, _) ← lift (resolveItems patched)
  let item := fieldsAt patchedItems index
  let settled ← settleUpdated services kind
    (fields.map (fun field => rootOf field.1)) beforeContent previous item
  let script := storeItems patched kind (patchedItems.set index (.dict settled))
  let after ← admissionFor services script itemId
  return ({ editing with script := script },
    { itemId := itemId
      before := before
      after := after })

/-- The place behind an anchor, or the beginning. -/
def anchorPlace : Option String → Except OperationFailure Nat
  | none => .ok 0
  | some afterId => do
      let index ← blame [.name "after_id"] id (findItem services items idField afterId)
      return index + 1

/-- The item as it is inserted: assets come from the removed item of the same
id or not at all. -/
def ownAssets (removed : Option Fields) (item : Fields) : Fields :=
  match removed with
  | none => pop (put item "generated_assets" (.dict []))
      "end_frame_image"
  | some owner => withAssetsOf owner item

def settleInserted (item : Fields) : Except OperationFailure Fields :=
  if kind = .videoUnits then
    let derived := if has item "references" then item
      else rederiveVideoUnitReferences services item
    refreshVideoUnitReplanState services true true derived
  else .ok item

def applyInsert (afterId : Option String) (item : Fields) :
    Except OperationFailure (Editing × Touched) := do
  let (items, kind) ← lift (resolveItems editing.script)
  let idPlace := [PathPart.name "item", .name kind.idField]
  let itemId := (get item kind.idField).asStr?.getD ""
  require (itemId ≠ "") (OperationFailure.edit
    { message := "inserted item must contain non-empty " ++ kind.idField
      location := some idPlace })
  require (itemId ∉ existingIds services.runtime items kind.idField) (OperationFailure.edit
      { message := "duplicate item id: " ++ itemId
        location := some idPlace })
  let insertAt ← anchorPlace services items kind.idField afterId
  let owned := ownAssets (editing.removedItems.get? itemId) item
  let settled ← settleInserted services kind owned
  let script := storeItems editing.script kind (items.insertIdx insertAt (.dict settled))
  let after ← admissionFor services script itemId
  return (
    { script := script
      removedItems := editing.removedItems.remove itemId },
    { itemId := itemId
      before := none
      after := after })

def applyMove (itemId : String) (afterId : Option String) :
    Except OperationFailure (Editing × Touched) := do
  require (afterId ≠ some itemId) (OperationFailure.edit
    { message := "move target cannot be its own anchor"
      location := some [.name "after_id"] })
  let (items, kind) ← lift (resolveItems editing.script)
  let index ← blame [.name "id"] id (findItem services items kind.idField itemId)
  let before ← admissionFor services editing.script itemId
  let others := items.eraseIdx index
  let insertAt ← anchorPlace services others kind.idField afterId
  let script := storeItems editing.script kind
    (others.insertIdx insertAt (.dict (fieldsAt items index)))
  let after ← admissionFor services script itemId
  return ({ editing with script := script },
    { itemId := itemId
      before := before
      after := after })

def applyRemove (itemId : String) : Except OperationFailure (Editing × Touched) := do
  let (items, kind) ← lift (resolveItems editing.script)
  let index ← blame [.name "id"] id (findItem services items kind.idField itemId)
  let before ← admissionFor services editing.script itemId
  return (
    { script := storeItems editing.script kind (items.eraseIdx index)
      removedItems := editing.removedItems.put itemId (fieldsAt items index) },
    { itemId := itemId
      before := before
      after := none })

def applyOperation : ScriptBatchOperation → Except OperationFailure (Editing × Touched)
  | .update itemId fields => applyUpdate services editing itemId fields
  | .insertAfter afterId item => applyInsert services editing afterId item
  | .moveAfter itemId afterId => applyMove services editing itemId afterId
  | .remove itemId => applyRemove services editing itemId

/-- What the loop over the operations keeps. -/
structure Progress where
  editing : Editing
  affectedIds : List String
  lastTouch : Dict String Nat
  speechChange : Dict String Nat

def Progress.touch (progress : Progress) (index : Nat) (editing : Editing)
    (touched : Touched) : Progress :=
  { editing := editing
    affectedIds :=
      if touched.itemId ∈ progress.affectedIds then progress.affectedIds
      else progress.affectedIds ++ [touched.itemId]
    lastTouch := progress.lastTouch.put touched.itemId index
    speechChange :=
      if touched.before = touched.after then progress.speechChange
      else progress.speechChange.put touched.itemId index }

/-- Apply the operations from the one at `index` on; a failure names its
operation. -/
def applyOperations (index : Nat) (progress : Progress) : List ScriptBatchOperation →
      Except (Nat × ScriptBatchOperation × OperationFailure) Progress
  | [] => .ok progress
  | operation :: rest =>
    match applyOperation services progress.editing operation with
    | .error failure => .error (index, operation, failure)
    | .ok (editing, touched) =>
      applyOperations (index + 1) (progress.touch index editing touched) rest

/-! ## The command -/

/-- An item that goes by a string. -/
def namedItem : Json → Option (String × Fields)
  | .dict fields => match get fields idField with
      | .str itemId => some (itemId, fields)
      | _ => none
  | _ => none

variable (script : EpisodeScript)

def admissions : Except OperationFailure (Dict String SpeechPreparation) := do
  let (items, kind) ← lift (resolveItems script)
  (items.filterMap (namedItem kind.idField)).foldlM (fun known entry => do
    let admission ← services.admitScriptUnit kind entry.2
    return known.put entry.1 admission) Dict.empty

def actionable (problems : List SpeechProblem) : List SpeechProblem :=
  if problems.any (fun problem => problem.code ≠ .needsReplan) then
    problems.filter (fun problem => problem.code ≠ .needsReplan)
  else problems

def newSpeechProblems (before after : Dict String SpeechPreparation)
    (progress : Progress) : List ScriptBatchEditProblem :=
  (after.rows.filter (fun entry => !entry.2.allowed &&
    before.get? entry.1 ≠ some entry.2)).flatMap (fun entry =>
      (actionable entry.2.problems).map (fun problem =>
        { code := problem.code.value
          operationIndex := (progress.speechChange.get? entry.1).or
            (progress.lastTouch.get? entry.1)
          unitId := some problem.unitId
          locations := problem.locations
          reason := problem.reason.value
          nextAction := problem.action.value }))

def operationId : ScriptBatchOperation → Option String
  | .insertAfter _ item =>
    (["segment_id", "scene_id", "shot_id", "unit_id"].filterMap
      (fun field => (get item field).asStr?)).head?
  | .update itemId _ => some itemId
  | .moveAfter itemId _ => some itemId
  | .remove itemId => some itemId

def operationErrorLocation (index : Nat) (operation : ScriptBatchOperation)
    (error : ScriptEditError) : ScriptBatchEditLocation :=
  let start := [PathPart.name "operations", .index index]
  match error.location with
  | some location => { path := start ++ location }
  | none =>
    match operation with
    | .update _ fields =>
      let field := (fields.map Prod.fst).headD "fields"
      { path := start ++ .name "fields" :: (dotParts field).map PathPart.name }
    | .insertAfter _ _ => { path := start ++ [.name "item"] }
    | _ => { path := start ++ [.name "id"] }

def validationLocation (message : ValidationMessage) : ScriptBatchEditLocation :=
  match message.blamed, message.field with
  | some blamed, some field =>
    let path := parsePath services blamed
    let fieldPath := parsePath services field
    if fieldPath.take path.length = path then { path := path }
    else { path := path ++ fieldPath }
  | some blamed, none =>
    let path := parsePath services blamed
    if message.key = "val_reference_not_in_bucket" then
      { path := path ++ [.name "references"] }
    else { path := path }
  | none, some field => { path := parsePath services field }
  | none, none =>
    { path := parsePath services (String.ofList
        (message.rendered.toList.takeWhile (fun char => char ≠ ':'))) }

def unitIdAtLocation (path : List PathPart) : Option String :=
  match resolveItems script, path with
  | .ok (items, kind), .name key :: .index index :: _ =>
    if key = kind.itemsKey ∧ 0 ≤ index then
      (get (fieldsAt items index.toNat) kind.idField).asStr?
    else none
  | _, _ => none

def operationFieldAffectsLocation (field : String) (location : List PathPart) : Bool :=
  let fieldPath := parsePath services field
  fieldPath.take location.length = location || location.take fieldPath.length = fieldPath ||
    (location.head? = some (.name "references") && fieldPath.head? = some (.name "shots"))

/-- The place within an item. -/
def relativePath : List PathPart → List PathPart
  | _ :: .index _ :: rest => rest
  | _ => []

/-- The last operation that touched the place. -/
def responsibleOperation (itemId : Option String) (location : List PathPart)
    (operations : List ScriptBatchOperation) : Option Nat :=
  let place := relativePath location
  if itemId = none ∨ place = [] then none
  else (operations.zipIdx.reverse.find? (fun entry =>
    match entry.1 with
    | .update other fields => some other = itemId && fields.any (fun field =>
      operationFieldAffectsLocation services field.1 place)
    | .insertAfter _ _ => operationId entry.1 = itemId
    | _ => false)).map Prod.snd

def archiveNonempty : List String :=
  ["val_array_empty", "val_ad_shots_missing", "val_video_units_missing"]

def candidateValidationErrors (candidate : EpisodeScript)
    (errors : List ValidationMessage) : List ValidationMessage :=
  match resolveItems candidate with
  | .ok ([], _) => errors.filter (fun message => message.key ∉ archiveNonempty)
  | _ => errors

/-- The metadata a write leaves in the script. -/
def stampMetadata : EpisodeScript :=
  let metadata := match EpisodeScript.value script "metadata" with
    | .dict fields => fields
    | _ => []
  let withDefault (fields : Fields) (key : String) (value : Json) : Fields :=
    if has fields key then fields else put fields key value
  let created := withDefault metadata "created_at" (.str services.now)
  let status := withDefault created "status" (.str "draft")
  script.put "metadata" (.dict (put status "updated_at" (.str services.now)))

/-- Where an edit stands: the file, the episode it goes by and the revision
it read. -/
structure EditTarget where
  script : String
  episode : Option Int
  revision : String

variable (target : EditTarget) (command : ScriptBatchEditCommand) (stored : EpisodeScript)

def failure (code reason nextAction : String) (operationIndex : Option Nat)
    (unitId : Option String) (locations : List ScriptBatchEditLocation) :
    ScriptBatchEditResult :=
  { success := false
    script := target.script
    episode := target.episode
    beforeRevision := target.revision
    revision := target.revision
    affectedIds := []
    problems := [
      { code := code
        operationIndex := operationIndex
        unitId := unitId
        locations := locations
        reason := reason
        nextAction := nextAction }] }

def commitFailed : ScriptBatchEditResult :=
  failure target "commit_failed" "durable_commit_failed" "retry" none none []

def migrationFailed (violation : String) : ScriptBatchEditResult :=
  failure target "project_migration_failed" violation "retry_project_migration" none none []

def manifestInvalid : ScriptBatchEditResult :=
  failure target "manifest_invalid" "artifact_manifest_unavailable" "retry" none none []

/-- Whatever goes wrong is reported the same way. -/
def orRefuse {Failure Result : Type} (refused : ScriptBatchEditResult) :
    Except Failure Result → Except ScriptBatchEditResult Result
  | .ok result => .ok result
  | .error _ => .error refused

/-- A refusal that points at a message of a validation. -/
def invalidCandidate (code reason : String) (candidate : EpisodeScript)
    (operations : List ScriptBatchOperation) (message : ValidationMessage) :
    ScriptBatchEditResult :=
  let location := validationLocation services message
  let unitId := unitIdAtLocation candidate location.path
  let operationIndex := responsibleOperation services unitId location.path operations
  failure target code reason (if operationIndex.isSome then "fix_operation" else "repair_script")
    operationIndex unitId [location]

def intJson? : Option Int → Option Json
  | some value => some (.int value)
  | none => none

/-- The checks ahead of the operations; the admissions of the stored script
are what they hand on. -/
def openEdit : Except ScriptBatchEditResult (Dict String SpeechPreparation) := do
  require (command.expectedRevision = target.revision)
    (failure target "revision_conflict" "revision_mismatch" "refresh_script" none none [])
  let expected := match command.episode with
    | some episode => some episode
    | none => services.filenameEpisode target.script
  let bound := match intJson? expected with
    | some episode => services.runtime.equal
        (EpisodeScript.value stored "episode") episode
    | none => true
  require (bound = true) (failure target "schema_invalid"
    "episode_binding_mismatch" "refresh_script" none none
    [{ path := [.name "episode"] }])
  match admissions services stored with
  | .ok before => .ok before
  | .error .crashed => .error (commitFailed target)
  | .error (.edit error) => .error (failure target "schema_invalid"
      "stored_schema_invalid" "repair_script" none none (match error.kind with
        | some kind => [{ path := [.name kind] }]
        | none => []))

/-- The loop over the operations of a command. -/
def runOperations : Except ScriptBatchEditResult Progress :=
  let start : Progress :=
    { editing :=
        { script := stored
          removedItems := Dict.empty }
      affectedIds := []
      lastTouch := Dict.empty
      speechChange := Dict.empty }
  match applyOperations services 0 start command.operations with
  | .ok progress => .ok progress
  | .error (_, _, .crashed) => .error (commitFailed target)
  | .error (index, operation, .edit error) => .error (failure target
      "operation_invalid" "operation_invalid" "fix_operation" (some index)
      (operationId operation) [operationErrorLocation index operation error])

/-- The checks of the candidate as a whole. -/
def validateCandidate (before : Dict String SpeechPreparation) (progress : Progress) :
    Except ScriptBatchEditResult Unit := do
  let candidate := progress.editing.script
  let after ← orRefuse (commitFailed target) (admissions services candidate)
  let speech := newSpeechProblems before after progress
  require (speech.isEmpty = true)
    { success := false
      script := target.script
      episode := target.episode
      beforeRevision := target.revision
      revision := target.revision
      affectedIds := []
      problems := speech }
  match services.validateScriptStructure candidate with
  | some message => .error (invalidCandidate services target "schema_invalid"
      "candidate_schema_invalid" candidate command.operations message)
  | none =>
    match candidateValidationErrors candidate (services.validateEpisodePayload candidate) with
    | message :: _ => .error (invalidCandidate services target
        "references_invalid" "candidate_references_invalid" candidate
        command.operations message)
    | [] => .ok ()

/-- Ids of the items that have a string for one. -/
def stringIds : List String :=
  (items.filterMap (namedItem idField)).map Prod.fst

/-- The manifest, and then the write. -/
def commitCandidate (progress : Progress) : Except ScriptBatchEditResult EpisodeScript := do
  let candidate := progress.editing.script
  let (items, kind) ← orRefuse (manifestInvalid target) (resolveItems candidate)
  let finalIds := stringIds items kind.idField
  match services.prepareManifestCommit candidate finalIds
    (progress.affectedIds.filter (fun id => id ∉ finalIds)) with
  | .migration violation => .error (migrationFailed target violation)
  | .unavailable => .error (manifestInvalid target)
  | .crashed => .error (commitFailed target)
  | .ready =>
    let stamped := stampMetadata services candidate
    match services.commit stamped with
    | .written => .ok stamped
    | .migration violation => .error (migrationFailed target violation)
    | .crashed => .error (commitFailed target)

def editCandidate : Except ScriptBatchEditResult (EpisodeScript × List String) := do
  let before ← openEdit services target command stored
  let progress ← runOperations services target command stored
  validateCandidate services target command before progress
  let written ← commitCandidate services target progress
  return (written, progress.affectedIds)

/-- An edit: the script stored afterwards and the result. -/
def execute (file : String) (command : ScriptBatchEditCommand)
    (stored : EpisodeScript) : EpisodeScript × ScriptBatchEditResult :=
  match services.migrationVerdict with
  | some reason =>
    (stored, migrationFailed
      { script := file
        episode := command.episode
        revision := command.expectedRevision } reason)
  | none =>
    let target : EditTarget :=
      { script := file
        episode := command.episode.or (EpisodeScript.value stored "episode").asInt?
        revision := services.scriptRevision stored }
    match editCandidate services target command stored with
    | .error refused => (stored, refused)
    | .ok (written, affectedIds) =>
      (written,
        { success := true
          script := file
          episode := target.episode
          beforeRevision := target.revision
          revision := services.scriptRevision written
          affectedIds := affectedIds
          problems := [] })

/-! ## Editing tools -/

/-- Edits as the tools offer them. -/
inductive ScriptEdit where
  | patch (operations : List ScriptBatchOperation)
  | insertSegment (afterId : String) (item : Json)
  | removeSegment (itemId : String)
  | splitSegment (itemId : String) (parts : List Json)

/-- Insert the items one behind the other. -/
def insertionChain (idField : String) : Option String → List Fields → List ScriptBatchOperation
  | _, [] => []
  | afterId, item :: rest =>
    .insertAfter afterId item :: insertionChain idField
      (some (services.runtime.str (get item idField))) rest

def splitIndex (itemId : String) : Except ScriptEditError Nat :=
  match findIndex services.runtime items idField itemId with
  | some index => .ok index
  | none => .error
      { message := "未找到 id=" ++ services.runtime.repr itemId ++ " 的分镜" }

/-- The operations an edit submits, from a preview on the script at hand. -/
def ScriptEdit.operations (current : EpisodeScript) :
    ScriptEdit → Except ScriptEditError (List ScriptBatchOperation)
  | .patch operations => .ok operations
  | .removeSegment itemId => .ok [.remove itemId]
  | .insertSegment afterId item => do
      let preview ← Script.insertSegment services.runtime current afterId item
      let (items, kind) ← resolveItems preview
      let anchor ← findItem services items kind.idField afterId
      return [.insertAfter (some afterId) (fieldsAt items (anchor + 1))]
  | .splitSegment itemId parts => do
      let (before, beforeKind) ← resolveItems current
      let index ← splitIndex services before beforeKind.idField itemId
      let previousId := if index = 0 then none
        else some (services.runtime.str (get (fieldsAt before (index - 1)) beforeKind.idField))
      let preview ← Script.splitSegment services.runtime current itemId parts
      let (items, kind) ← resolveItems preview
      let anchor ← findItem services items kind.idField itemId
      let generated := (List.range parts.length).map
        (fun offset => fieldsAt items (anchor + offset))
      return .remove itemId :: insertionChain services kind.idField previousId generated

/-- A tool previews its edit on the script it has loaded and pins its
revision. -/
def runTool (file : String) (current stored : EpisodeScript) (edit : ScriptEdit) :
    Except ScriptEditError (EpisodeScript × ScriptBatchEditResult) := do
  let operations ← edit.operations services current
  return execute services file
    { episode := none
      expectedRevision := services.scriptRevision current
      operations := operations } stored

end Model

end MatrixSpooll.Script
