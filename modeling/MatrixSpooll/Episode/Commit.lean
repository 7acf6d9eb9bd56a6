import MatrixSpooll.Episode.Planner

/-!
# Committing a batch

The commit runs under the project lock: it checks the ledger again, numbers and
appends the new episodes, moves the cursor, and rewrites the derived files
before the ledger itself is written.  A commit that fails leaves the ledger as
it was; only a write refused by the file system leaves earlier writes behind.
-/

namespace MatrixSpooll.Episode

open Library

def sourceRangeFields (sourceRel : String) (start stop : Int) : List (String × Json) :=
  [("source_file", .str sourceRel), ("start", .int start), ("end", .int stop)]

def outlineFields (draft : EpisodeDraft) : List (String × Json) :=
  match draft.outline with
  | none => []
  | some outline =>
    let teaser := match outline.nextEpisodeTeaser with
      | some text => Json.str text
      | none => Json.null
    [("outline", .dict [("story_beats", .list (outline.storyBeats.map Json.str)),
        ("next_episode_teaser", teaser)])]

def ledgerEntryFromDraft (draft : EpisodeDraft) (num : Int)
    (sourceRel : String) (start stop : Int) (status : String) :
    List (String × Json) :=
  [("episode", .int num), ("title", .str draft.title),
    ("script_file", .str (episodeScriptRelpath num)),
    ("source_range", .dict (sourceRangeFields sourceRel start stop)),
    ("hook", .str draft.hook), ("ledger_status", .str status)] ++
    outlineFields draft

def staleStepRevisionField : String := "stale_step1_revision"

variable (host : Host) (around : Surroundings)

/-- The entry of a new episode; products that exist already make it stale. -/
def batchEntry (draft : EpisodeDraft) (num : Int) (sourceRel : String) (start stop : Int) : Json :=
  let planned := ledgerEntryFromDraft draft num sourceRel start stop "planned"
  if hasDownstreamProducts around num planned then
    let revision := match around.stepRevision num with
      | some text => Json.str text
      | none => Json.null
    .dict (ledgerEntryFromDraft draft num sourceRel start stop "stale" ++
      [(staleStepRevisionField, revision)])
  else .dict planned

/-- One entry for each draft, each from the end of the one before. -/
def batchEntries (around : Surroundings) (sourceRel : String) (start : Int) :
    Int → Int → List (EpisodeDraft × Nat) → List Json
  | _, _, [] => []
  | prev, num, (draft, relEnd) :: rest =>
    let absEnd := start + relEnd
    batchEntry around draft num sourceRel prev absEnd ::
      batchEntries around sourceRel start absEnd (num + 1) rest

def nextNum (episodes : List Json) : Int :=
  ((episodes.filterMap (entryNum host)).filter (fun num => 0 < num)).foldl max 0 + 1

def isNull : Json → Bool
  | .null => true
  | _ => false

def cursorFields (sourceRel : String) (offset : Int) : List (String × Json) :=
  [("source_file", .str sourceRel), ("offset", .int offset)]

def fingerprintFields (fingerprints : Fingerprints) : List (String × Json) :=
  fingerprints.map (fun field => (field.1, .str field.2))

/-- Files whose text is not the one a call has read. -/
def changedSources (used current : Fingerprints) : List String :=
  ((used.filter (fun field => current.lookup field.1 ≠ some field.2)).map
    Prod.fst).insertionSort (fun first second => first ≤ second)

variable (items : List Json) (call : PlanCall) (folder : SourceFolder)

def PlanCall.lastEnd : Int :=
  call.place.start + (call.ends.getLast?.getD 0 : Nat)

def keptItems : List Json :=
  items.filter (fun entry => !isNull entry)

/-- The entries a call adds to `items`. -/
def newEntries : List Json :=
  batchEntries around call.place.sourceRel call.place.start call.place.start
    (nextNum host (keptItems items)) (call.drafts.zip call.ends)

def planCursor : Json :=
  .dict (cursorFields call.place.sourceRel call.lastEnd)

/-- The ledger with the batch of `call`. -/
def appendBatch (current : Fingerprints) (project : Project)
    (items : List Json) (call : PlanCall) : Project :=
  ((project.put "episodes" (.list (sortEpisodesIfPossible host
    (keptItems items ++ newEntries host around items call)))).put
    "planning_cursor" (planCursor call)).put
    sourceFingerprintsKey (.dict (fingerprintFields current))

def textField (fields : List (String × Json)) (key : String) : String :=
  ((Json.get fields key).asStr?).getD ""

def planSummary (entry : Json) : Option EpisodePlanSummary :=
  match entry with
  | .dict fields =>
    (entryNum host entry).map (fun num =>
      { episode := num
        title := textField fields "title"
        hook := textField fields "hook"
        ledgerStatus := textField fields "ledger_status" })
  | _ => none

def batchResult (sources : List SourceDoc) (items : List Json)
    (committed : Project) (call : PlanCall) : PlanResult :=
  let summaries := (newEntries host around items call).filterMap (planSummary host)
  { episodes := summaries
    cursor := planCursor call
    sourceExhausted := call.windowIsFinal && isBlank (sliceFrom call.place.text call.lastEnd) &&
      (nextSourceRel sources call.place.sourceRel).isNone
    staleEpisodes := (summaries.filter (fun entry => entry.ledgerStatus = "stale")).map
        EpisodePlanSummary.episode
    totalPlanned := countPlannedEpisodes host committed }

def conflictError : PlanFailure :=
  .conflict "规划期间账本进度被并发修改，本次结果作废；请重新调用规划"

/-- The checks of the commit and the ledger it would write. -/
def prepareBatch (project : Project) (call : PlanCall) :
    Except PlanFailure (Project × PlanResult) := do
  let healed := registerOrphanEpisodeEntries host around folder project
  checkSourceRanges host healed
  let sources := discoverSources host folder
  let reached ← effectiveStart host sources healed
  require (reached = call.startRef) conflictError
  checkSourceFingerprints host healed sources
  let current := computeSourceFingerprints host sources
  let changed := changedSources call.place.used current
  require (changed = []) (sourceChangedError changed)
  let items ← itemsOf healed
  let committed := appendBatch host around current healed items call
  return (committed, batchResult host around sources items committed call)

/-- The text of the file an entry points to, the planned file's from memory. -/
def cachedText (cached : String × Text) (num : Int) (rel : String) : Except PlanFailure Text :=
  if rel = cached.1 then .ok cached.2
  else match loadNormalizedSource host around folder rel with
    | .ok text => .ok text
    | .error message => .error (.planning ("第 " ++ toString num ++
        " 集派生文件重写失败，提交已中止：" ++ message))

/-- The file an entry is written to and its text; `none` for an entry without
a number. -/
def plannedWrite (cached : String × Text) (entry : Json) :
    Except PlanFailure (Option (String × Text)) :=
  match entry with
  | .dict fields =>
    match parseEpisodeNum host (Json.get fields "episode") with
    | none => .ok none
    | some num =>
      match Json.get fields "source_range" with
      | .dict _ =>
        match parseSourceRange entry with
        | none => .error (.planning ("第 " ++ toString num ++
            " 集原文范围记录非法，无法完成派生文件对账，提交已中止"))
        | some (rel, start, stop) => do
            let text ← cachedText host around folder cached num rel
            require (0 ≤ start ∧ start ≤ stop ∧ stop ≤ text.length)
              (PlanFailure.planning ("第 " ++ toString num ++ " 集原文范围越界（start=" ++ toString start ++
                "，end=" ++ toString stop ++ "，源文长度 " ++
                toString text.length ++
                "），无法完成派生文件对账，提交已中止"))
            require (((folder.listing.get? (derivedFileName num)).map
                FileNode.isSymlink).getD false = false)
              (PlanFailure.planning ("第 " ++ toString num ++ " 集派生文件是符号链接，拒绝写入，提交已中止"))
            return some (derivedFileName num, slice text start stop)
      | _ => .error (.planning ("第 " ++ toString num ++
          " 集缺少原文范围记录，无法完成派生文件对账，提交已中止"))
  | _ => .ok none

namespace SourceFolder

variable (folder : SourceFolder)

/-- `write_text`; a directory in the way makes it fail. -/
def writeText (name : String) (content : Text) : Option SourceFolder :=
  match folder.listing.get? name with
  | some .directory => none
  | _ => some { folder with listing := folder.listing.put name (.text content) }

/-- Write until one write fails; the flag tells whether all went through. -/
def writeAll (folder : SourceFolder) : List (String × Text) → SourceFolder × Bool
  | [] => (folder, true)
  | (name, content) :: rest =>
    match folder.writeText name content with
    | none => (folder, false)
    | some written => written.writeAll rest

def unlink (name : String) : SourceFolder :=
  { folder with listing := folder.listing.remove name }

/-- Remove the picked file of every number that is not kept. -/
def unlinkLeftovers (keep : List Int) : SourceFolder :=
  ((discoverEpisodeFiles folder).filter (fun num : Nat => (num : Int) ∉ keep)).foldl
    (fun current num => match episodeFile folder num with
      | some name => current.unlink name
      | none => current) folder

def unlinkRemaining : SourceFolder :=
  if ((folder.listing.get? "_remaining.txt").map FileNode.isFile).getD false
  then folder.unlink "_remaining.txt"
  else folder

end SourceFolder

def reconcileDerivedFiles (host : Host) (around : Surroundings)
    (folder : SourceFolder) (episodes : List Json) (cached : String × Text) :
    SourceFolder × Except PlanFailure Unit :=
  if folder.isLink then
    (folder, .error (.planning "source/ 不能是符号链接，拒绝派生集文件"))
  else match episodes.mapM (plannedWrite host around folder cached) with
    | .error failure => (folder, .error failure)
    | .ok writes =>
      match folder.writeAll writes.reduceOption with
      | (written, false) => (written, .error .osError)
      | (written, true) =>
        let keep := episodes.filterMap (entryNum host)
        ((written.unlinkLeftovers keep).unlinkRemaining, .ok ())

/-- The commit of a batch: the folder it leaves and, on success, the ledger it
writes. -/
def commitBatch (host : Host) (around : Surroundings) (folder : SourceFolder)
    (project : Project) (call : PlanCall) :
    SourceFolder × Except PlanFailure (Project × PlanResult) :=
  match prepareBatch host around folder project call with
  | .error failure => (folder, .error failure)
  | .ok prepared =>
    match reconcileDerivedFiles host around folder (rawEpisodes prepared.1)
      (call.place.sourceRel, call.place.text) with
    | (written, .error failure) => (written, .error failure)
    | (written, .ok ()) => (written, .ok prepared)

/-- Record fingerprints although there is nothing left to plan. -/
def backfillSourceFingerprints (host : Host) (folder : SourceFolder)
    (project : Project) (used : Fingerprints) :
    Except PlanFailure (Project × PlanResult) := do
  let sources := discoverSources host folder
  checkSourceFingerprints host project sources
  let current := computeSourceFingerprints host sources
  let changed := changedSources used current
  require (changed = []) (sourceChangedError changed)
  let committed := project.put sourceFingerprintsKey (.dict (fingerprintFields current))
  return (committed, exhaustedResult host committed)

end MatrixSpooll.Episode
