import MatrixSpooll.Episode.Commit

/-!
# Resetting episode planning

A full reset clears the ledger whatever state it is in.  A partial reset keeps
the episodes before `from_episode`; it first proves to itself that these lie
end to end from the beginning of the sources, and then puts the cursor at the
end of the last one kept.
-/

namespace MatrixSpooll.Episode

open Library

inductive ResetFailure where
  | reset (message : String)
  | conflict (message : String)
deriving DecidableEq

/-- Numbers affected, numbers already consumed, files to delete and files to
keep under another name. -/
structure ResetPlan where
  episodeNums : List Int
  consumed : List Int
  deletes : List String
  archives : List String

def archiveCandidate (name : String) (index : Nat) : String :=
  if index = 0 then "_" ++ name ++ ".bak"
  else "_" ++ name ++ "." ++ toString index ++ ".bak"

/-- The first candidate that is not taken; with one candidate more than there
are entries, one of them is free. -/
def archivePath (folder : SourceFolder) (name : String) : String :=
  let taken := fun index : Nat => (folder.listing.get? (archiveCandidate name index)).isSome
  archiveCandidate name (((List.range (folder.listing.entries.length + 1)).find?
      (fun index => !taken index)).getD 0)

def numberedEntries (host : Host) (project : Project) : List (Int × List (String × Json)) :=
  (rawEpisodes project).filterMap (fun entry =>
    match entry with
    | .dict fields => (entryNum host entry).map (fun num => (num, fields))
    | _ => none)

/-- All entries of one number, `[{}]` if there are none. -/
def duplicates (entries : List (Int × List (String × Json))) (num : Int) :
    List (List (String × Json)) :=
  match (entries.filter (fun entry => entry.1 = num)).map Prod.snd with
  | [] => [[]]
  | found => found

def isConsumed (around : Surroundings)
    (entries : List (Int × List (String × Json))) (num : Int) : Bool :=
  entries.any (fun entry => entry.1 = num &&
      (Json.get entry.2 "ledger_status").asStr? = some "consumed") ||
    around.productNums.any (fun product : Nat => (product : Int) = num) ||
    (duplicates entries num).any (hasDownstreamProducts around num)

def canRecreate (entries : List (Int × List (String × Json))) (num : Int) : Bool :=
  (duplicates entries num).all (fun fields => (parseSourceRange (.dict fields)).isSome)

def inScope (fromEpisode num : Int) : Bool :=
  fromEpisode = 1 || fromEpisode ≤ num

def aliasPaths (folder : SourceFolder) (num : Int) : List String :=
  if 0 ≤ num then (episodeFileAliases folder num.toNat).map Prod.fst else []

def scan (host : Host) (around : Surroundings) (folder : SourceFolder)
    (project : Project) (fromEpisode : Int) : ResetPlan :=
  let entries := numberedEntries host project
  let sorted := fun nums : List Int =>
    (nums.dedup.insertionSort (fun first second => first ≤ second)).filter (inScope fromEpisode)
  let nums := sorted (entries.map Prod.fst ++
    (aliasNums folder).map (fun num : Nat => (num : Int)) ++
    around.productNums.map (fun num : Nat => (num : Int)))
  { episodeNums := sorted (entries.map Prod.fst)
    consumed := nums.filter (isConsumed around entries)
    deletes := (nums.filter (canRecreate entries)).flatMap (aliasPaths folder)
    archives := (nums.filter (fun num => !canRecreate entries num)).flatMap (aliasPaths folder) }

namespace SourceFolder

variable (folder : SourceFolder)

def rename (name target : String) : SourceFolder :=
  match folder.listing.get? name with
  | some node =>
    { folder with
      listing := (folder.listing.remove name).put target node }
  | none => folder

def unlinkEach (names : List String) : SourceFolder :=
  names.foldl unlink folder

def renameEach (targets : List (String × String)) : SourceFolder :=
  targets.foldl (fun current pair => current.rename pair.1 pair.2) folder

end SourceFolder

def archiveTargets (folder : SourceFolder) (plan : ResetPlan) : List (String × String) :=
  plan.archives.map (fun name => (name, archivePath folder name))

def applyFiles (folder : SourceFolder) (plan : ResetPlan) : SourceFolder :=
  ((folder.unlinkEach plan.deletes).renameEach (archiveTargets folder plan)).unlinkRemaining

def fullResetHint : String := "请改用 from_episode=1 做全量重置"

def unsafeBoundary (reason : String) : String :=
  reason ++ "，无法安全推算部分重置边界，" ++ fullResetHint

variable (host : Host) (around : Surroundings)

/-- Collect an entry under its number; the ledger must be free of damage. -/
def collectEntry (found : List (Int × Json)) (entry : Json) :
    Except String (List (Int × Json)) := do
  match entry with
  | .dict fields =>
    match parseEpisodeNum host (Json.get fields "episode") with
    | none => .error (unsafeBoundary "账本存在无法解析集号的条目")
    | some num =>
      require (1 ≤ num) (unsafeBoundary ("账本存在非法集号 " ++ toString num ++ "（须为正整数）"))
      require ((found.lookup num).isNone) (unsafeBoundary ("账本存在重复集号 " ++ toString num))
      return found ++ [(num, entry)]
  | _ => .error (unsafeBoundary "账本存在非法条目（非对象）")

variable (folder : SourceFolder) (sources : List SourceDoc) (project : Project)

def collectEntries : Except String (List (Int × Json)) :=
  match project.value "episodes" with
  | .list items => items.foldlM (collectEntry host) []
  | _ => .error (unsafeBoundary "账本 episodes 字段形状异常")

def sortedNums (entries : List (Int × Json)) : List Int :=
  (entries.map Prod.fst).insertionSort (fun first second => first ≤ second)

/-- The first number missing from a run that should begin at `expected`. -/
def firstGap : Int → List Int → Int
  | expected, [] => expected
  | expected, num :: rest =>
    if num ≠ expected then expected else firstGap (expected + 1) rest

def listRepr (nums : List Int) : String :=
  "[" ++ String.intercalate ", " (nums.map toString) ++ "]"

def textOf (rel : String) : Option Text :=
  (sources.find? (fun doc => doc.relPath = rel)).map SourceDoc.text

def rangeRepr (start stop : Int) : String :=
  "[" ++ toString start ++ ", " ++ toString stop ++ ")"

def rangeInside (text : Option Text) (start stop : Int) : Bool :=
  match text with
  | some text => 0 ≤ start && start < stop && stop ≤ text.length
  | none => false

def blankUntil (rel : String) : Bool :=
  match sourceIndex sources rel with
  | none => false
  | some index => (sources.take index).all (fun doc => isBlank doc.text)

/-- Whether the sources between the end of one episode and the beginning of
another file hold blanks only. -/
def legalSwitch (prevRel : String) (prevEnd : Int) (rel : String) : Bool :=
  match sourceIndex sources prevRel, sourceIndex sources rel, textOf sources prevRel with
  | some prevIndex, some index, some prevText =>
    prevIndex < index && isBlank (sliceFrom prevText prevEnd) &&
      ((sources.take index).drop (prevIndex + 1)).all (fun doc => isBlank doc.text)
  | _, _, _ => false

def damagedReset (reason : String) : String :=
  reason ++ "，账本可能已损坏，无法安全部分重置，" ++ fullResetHint

/-- One turn over the episodes kept: the place reached after `num`. -/
def checkRetained (entries : List (Int × Json)) (prev : Option (String × Int)) (num : Int) :
    Except String (Option (String × Int)) := do
  match parseSourceRange ((entries.lookup num).getD .null) with
  | none => return none
  | some (rel, start, stop) =>
    let text := textOf sources rel
    require (rangeInside text start stop) ("第 " ++ toString num ++
      " 集原文范围无效（源文件 " ++ rel ++ " 当前长度 " ++
      toString ((text.map List.length).getD 0) ++ "，记录范围 " ++
      rangeRepr start stop ++ "），无法安全部分重置，" ++ fullResetHint)
    match prev with
    | none =>
      require (num = 1) ("第 " ++ toString num ++ " 集之前存在没有原文范围记录的条目，无法确认原文范围是否与保留段" ++
        "其余部分衔接，无法安全部分重置，" ++ fullResetHint)
      require (start = 0 ∧ blankUntil sources rel) (damagedReset
        ("第 1 集原文范围未从源文件起点开始（记录范围 " ++ rangeRepr start stop ++ " @ " ++ rel ++ "，其前源文件仍有非空白内容）"))
      return some (rel, stop)
    | some (prevRel, prevEnd) =>
      require (rel = prevRel ∨ legalSwitch sources prevRel prevEnd rel)
        (damagedReset ("第 " ++ toString num ++ " 集切换源文件不合法（应在 " ++ prevRel ++
          " 及其间源文件耗尽后顺序切到下一有内容的源文件）"))
      let expected := if rel = prevRel then prevEnd else 0
      require (start = expected) (damagedReset ("第 " ++ toString num ++
        " 集原文范围与前一集不连续（应从 " ++ toString expected ++
        " 起，实际 " ++ toString start ++ "）"))
      return some (rel, stop)

/-- The numbers `range(1, from_episode)`. -/
def retainedNums (fromEpisode : Int) : List Int :=
  (List.range (fromEpisode - 1).toNat).map (fun index : Nat => (index : Int) + 1)

def resolvePartialResetCursor (fromEpisode : Int) : Except String (String × Int) := do
  let entries ← collectEntries host project
  require ((entries.lookup fromEpisode).isSome) ("第 " ++
    toString fromEpisode ++ " 集不在账本中，无法从此处部分重置（当前已规划集号：" ++
    listRepr (sortedNums entries) ++ "）")
  let expected := firstGap 1 ((sortedNums entries).filter (fun num => num < fromEpisode))
  require (expected = fromEpisode) ("账本缺少第 " ++ toString expected ++
    " 集起的条目，保留段不连续，无法安全推算部分重置边界，" ++ fullResetHint)
  let mismatched := mismatchedSourceFingerprints host (project.value sourceFingerprintsKey) sources
  require (mismatched = []) ("源文件已被修改或移除：" ++ String.intercalate "、" mismatched ++
    "；账本坐标绑定的是修改前的原文内容，无法安全部分重置，" ++ fullResetHint)
  let reached ← (retainedNums fromEpisode).foldlM (checkRetained sources entries) none
  match reached with
  | none => .error ("第 " ++ toString (fromEpisode - 1) ++
      " 集缺少可信的原文范围记录（source_range），无法确定部分重置后的规划起点，" ++
      fullResetHint)
  | some cursor => return cursor

/-- A reset call between its first scan and its commit. -/
structure ResetCall where
  fromEpisode : Int
  consumed : List Int

inductive ResetRead where
  | confirmationRequired (consumed : List Int) (archived : List String)
  | ready (call : ResetCall)

/-- The cursor a reset leaves: none for a full reset. -/
def resetCursor (fromEpisode : Int) : Except ResetFailure (Option (String × Int)) :=
  if 1 < fromEpisode then
    match resolvePartialResetCursor host sources project fromEpisode with
    | .ok cursor => .ok (some cursor)
    | .error message => .error (.reset message)
  else .ok none

/-- The part of a reset outside the lock; it writes nothing. -/
def readReset (fromEpisode : Int) (confirmConsumed : Bool) : Except ResetFailure ResetRead := do
  require (1 ≤ fromEpisode) (ResetFailure.reset ("from_episode 必须是正整数，收到 " ++ toString fromEpisode))
  let _ ← resetCursor host (discoverSources host folder) project fromEpisode
  let plan := scan host around folder project fromEpisode
  if plan.consumed ≠ [] ∧ !confirmConsumed then
    return .confirmationRequired plan.consumed plan.archives
  else
    return .ready
      { fromEpisode := fromEpisode
        consumed := plan.consumed }

def isRetained (fromEpisode : Int) (entry : Json) : Bool :=
  match entry with
  | .dict _ => numOrZero host entry < fromEpisode
  | _ => false

/-- The entries before `fromEpisode`, in order. -/
def retainedEntries (fromEpisode : Int) : List Json :=
  ((rawEpisodes project).filter (isRetained host fromEpisode)).insertionSort
    (fun first second => numOrZero host first ≤ numOrZero host second)

def resetLedger (fromEpisode : Int) (cursor : Option (String × Int)) : Project :=
  match cursor with
  | some (file, offset) =>
    (project.put "episodes" (.list (retainedEntries host project fromEpisode))).put
      "planning_cursor" (.dict (cursorFields file offset))
  | none =>
    ((project.put "episodes" (.list [])).put "planning_cursor" .null).remove sourceFingerprintsKey

structure EpisodeResetResult where
  removedEpisodes : List Int
  deletedFiles : List String
  archivedFiles : List (String × String)
  consumedEpisodes : List Int

/-- What a reset leaves behind. -/
structure ResetOutcome where
  project : Project
  folder : SourceFolder
  result : EpisodeResetResult

/-- The part of a reset under the lock. -/
def commitReset (call : ResetCall) : Except ResetFailure ResetOutcome := do
  let cursor ← resetCursor host (discoverSources host folder) project call.fromEpisode
  let current := scan host around folder project call.fromEpisode
  require (∀ num ∈ current.consumed, num ∈ call.consumed)
    (ResetFailure.conflict "重置期间出现新的已消费集，需重新确认后再执行")
  require (folder.isLink = false) (ResetFailure.reset "source/ 不能是符号链接或目录联接，拒绝处置派生集文件")
  return { project := resetLedger host project call.fromEpisode cursor
           folder := applyFiles folder current
           result :=
             { removedEpisodes := current.episodeNums
               deletedFiles := current.deletes
               archivedFiles := archiveTargets folder current
               consumedEpisodes := current.consumed } }

inductive ResetAnswer where
  | confirmationRequired (consumed : List Int) (archived : List String)
  | done (outcome : ResetOutcome)

/-- A reset that nothing else runs beside. -/
def resetEpisodePlanning (fromEpisode : Int) (confirmConsumed : Bool) :
    Except ResetFailure ResetAnswer := do
  let read ← readReset host around folder project fromEpisode confirmConsumed
  match read with
  | .confirmationRequired consumed archived =>
    return .confirmationRequired consumed archived
  | .ready call =>
    let outcome ← commitReset host around folder project call
    return .done outcome

end MatrixSpooll.Episode
