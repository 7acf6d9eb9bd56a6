import MatrixSpooll.Episode.Ledger
import MatrixSpooll.Library.Checked

/-!
# The episode planner

`plan()` reads the ledger, asks the text model to cut the next window of source
text into episodes, and commits the cut to the ledger under the project lock.
Between the two the ledger may change; the commit therefore compares the place
it starts from with the place the ledger has reached by then.
-/

namespace MatrixSpooll.Episode

open Library

inductive PlanFailure where
  | planning (message : String)
  | conflict (message : String)
  | typeError
  | osError
  | unending
deriving DecidableEq

structure Outline where
  storyBeats : List String
  nextEpisodeTeaser : Option String
  beatsNonempty : storyBeats ≠ []

/-- An episode as the text model returns it, after validation of its shape.
Only dramas have an outline. -/
structure EpisodeDraft where
  title : String
  hook : String
  endAnchor : Text
  outline : Option Outline
  titleNonempty : title ≠ ""
  hookNonempty : hook ≠ ""
  anchorLong : 2 ≤ endAnchor.length

structure PlanDraft where
  episodes : List EpisodeDraft
  nonempty : episodes ≠ []

/-- One answer of the text model. -/
inductive Response where
  | truncated (message : String)
  | unstructured (message : String)
  | rejected (reasons : List String)
  | draft (plan : PlanDraft)

/-- Full width punctuation and its half width form, by code point. -/
def punctFold : List (Nat × Nat) :=
  [(0x3002, 0x2E), (0xFF0E, 0x2E), (0xFF0C, 0x2C), (0xFF01, 0x21),
    (0xFF1F, 0x3F), (0xFF1A, 0x3A), (0xFF1B, 0x3B), (0xFF08, 0x28),
    (0xFF09, 0x29), (0xFF5E, 0x7E), (0x301C, 0x7E), (0x201C, 0x22),
    (0x201D, 0x22), (0x2018, 0x27), (0x2019, 0x27), (0xFF02, 0x22), (0xFF07, 0x27)]

def foldChar (char : Char) : Char :=
  match punctFold.lookup char.toNat with
  | some folded => Char.ofNat folded
  | none => if isSpace char then ' ' else char

def foldForMatch (text : Text) : Text := text.map foldChar

/-- Every start of `needle`, overlapping ones included. -/
def findAllOverlapping (haystack needle : Text) : List Nat :=
  if needle.isEmpty then [] else search haystack 0
where
  search : Text → Nat → List Nat
    | [], _ => []
    | char :: rest, position =>
      if needle.isPrefixOf (char :: rest) then
        position :: search rest (position + 1)
      else search rest (position + 1)

/-- Where an anchor was found, how long the match is, and whether it took
folding to find it. -/
structure AnchorMatch where
  starts : List Nat
  matchLen : Nat
  matchedByFold : Bool

variable (host : Host)

def locateAnchor (window anchor : Text) : AnchorMatch :=
  let exactStarts := findAllOverlapping window anchor
  if exactStarts ≠ [] then
    { starts := exactStarts
      matchLen := anchor.length
      matchedByFold := false }
  else
    let normalized := normalizeSourceText host anchor
    { starts := findAllOverlapping (foldForMatch window) (foldForMatch normalized)
      matchLen := normalized.length
      matchedByFold := true }

def missingReason (index : Nat) (anchor : Text) : String :=
  "第 " ++ toString index ++ " 条的 end_anchor 在原文窗口中不存在（必须逐字摘抄，含标点）: " ++ host.repr anchor

def ambiguousReason (index : Nat) (anchor : Text) (found : AnchorMatch) : String :=
  if found.matchedByFold then
    "第 " ++ toString index ++ " 条的 end_anchor 在原文窗口中按归一" ++ "（NFC 与换行统一）及标点全/半角、空白折叠对齐后出现 " ++
      toString found.starts.length ++ " 次（逐字精确匹配可能为 0 次）" ++
      "，无法唯一定位，请改用更长或更独特、与原文逐字一致的片段: " ++
      host.repr anchor
  else
    "第 " ++ toString index ++ " 条的 end_anchor 在原文窗口中出现 " ++ toString found.starts.length ++
      " 次，无法唯一定位，请改用更长或更独特的片段: " ++ host.repr anchor

def orderReason (index : Nat) (anchor : Text) : String :=
  "第 " ++ toString index ++ " 条的 end_anchor 位置不在上一集结尾之后" ++ "（各集范围必须连续推进、不重叠）: " ++ host.repr anchor

/-- The loop variables of `_resolve_boundaries`. -/
structure Resolution where
  reasons : List String
  ends : List Nat
  pos : Nat
  orderingValid : Bool

namespace Resolution

def start : Resolution :=
  { reasons := []
    ends := []
    pos := 0
    orderingValid := true }

def reject (state : Resolution) (reason : String) : Resolution :=
  { state with
    reasons := state.reasons ++ [reason]
    orderingValid := false }

def accept (state : Resolution) (stop : Nat) : Resolution :=
  { state with
    ends := state.ends ++ [stop]
    pos := stop }

/-- Take the place an anchor was found at, or the reason not to. -/
def judge (state : Resolution) (host : Host) (indexed : EpisodeDraft × Nat)
    (found : AnchorMatch) : Resolution :=
  match found.starts with
  | [] => state.reject (missingReason host indexed.2 indexed.1.endAnchor)
  | [position] =>
    if state.orderingValid ∧ position + found.matchLen ≤ state.pos then
      state.reject (orderReason host indexed.2 indexed.1.endAnchor)
    else state.accept (position + found.matchLen)
  | _ => state.reject (ambiguousReason host indexed.2 indexed.1.endAnchor found)

def turn (host : Host) (window : Text) (state : Resolution)
    (indexed : EpisodeDraft × Nat) : Resolution :=
  state.judge host indexed (locateAnchor host window indexed.1.endAnchor)

end Resolution

/-- Move the last end over a blank rest of the window. -/
def snapTail (window : Text) (ends : List Nat) : List Nat :=
  match ends.getLast? with
  | none => ends
  | some last =>
    if last < window.length ∧ isBlank (window.drop last) then
      ends.dropLast ++ [window.length]
    else ends

variable (around : Surroundings)

/-- The ends of the drafts inside the window, or the reasons against them. -/
def resolveBoundaries (window : Text) (drafts : List EpisodeDraft)
    (snapWhitespaceTail : Bool) : Except (List String) (List Nat) :=
  let final := (drafts.zipIdx 1).foldl (Resolution.turn host window) .start
  if final.reasons ≠ [] then .error final.reasons
  else if snapWhitespaceTail then .ok (snapTail window final.ends)
  else .ok final.ends

def truncatedHint : String :=
  "也可调小项目设置 planning_window_chars（单批窗口字数）或 " ++ "planning_max_episodes（单批集数上限）以缩小本批输出体量后重试。"

/-- Ask until an answer passes; `attempt` counts from zero. -/
def requestValidatedDrafts (host : Host) (maxAttempts : Nat)
    (responses : Nat → Response) (window : Text) (snapWhitespaceTail : Bool)
    (maxEpisodes : Nat) : Nat → Nat → List String →
      Except PlanFailure (List EpisodeDraft × List Nat)
  | 0, _, failure => .error (.planning ("分集规划连续 " ++
      toString maxAttempts ++ " 次未通过校验，最后一轮原因：" ++
      String.intercalate "; " failure))
  | remaining + 1, attempt, _ =>
    let again := requestValidatedDrafts host maxAttempts responses window
      snapWhitespaceTail maxEpisodes remaining (attempt + 1)
    match responses attempt with
    | .truncated message => .error (.planning (message ++ truncatedHint))
    | .unstructured message => .error (.planning message)
    | .rejected reasons => again reasons
    | .draft plan =>
      let drafts := plan.episodes.take maxEpisodes
      match resolveBoundaries host window drafts snapWhitespaceTail with
      | .ok ends => .ok (drafts, ends)
      | .error reasons => again reasons

def sourceFingerprintsKey : String := "source_fingerprints"

def sourceChangedError (paths : List String) : PlanFailure :=
  .planning ("源文件已被修改或移除：" ++ String.intercalate "、" paths ++ "。账本坐标绑定的是修改前的原文内容，继续规划会静默切出" ++
    "错误内容；请先调用 reset_episode_planning 做全量重置，再重新规划。")

def missingSourceRangeError (nums : List Int) : PlanFailure :=
  let listed := String.intercalate "、" ((nums.take 10).map toString)
  let counted :=
    if 10 < nums.length then
      listed ++ " 等 " ++ toString nums.length ++ " 集"
    else listed
  .planning ("账本中第 " ++ counted ++ " 没有原文范围记录（source_range），无法据此续接规划——这类条目的物理集文件" ++
    "就是它们的最终记录，既无法重造也无法确定下一批的起点；请先调用 reset_episode_planning 做" ++
    "全量重置（这些集的集文件会改名留底、下游产物不删），再重新规划。")

variable (folder : SourceFolder) (project : Project) (sources : List SourceDoc)

def checkSourceRanges : Except PlanFailure Unit :=
  let missing := episodesWithoutSourceRange host project
  require (missing = []) (missingSourceRangeError missing)

def checkSourceFingerprints : Except PlanFailure Unit :=
  let mismatched := mismatchedSourceFingerprints host (project.value sourceFingerprintsKey) sources
  require (mismatched = []) (sourceChangedError mismatched)

/-- File and end of an entry that has both. -/
def rangeEnd (entry : Json) : Option (String × Int) :=
  match entry with
  | .dict fields =>
    match Json.get fields "source_range" with
    | .dict range =>
      match (Json.get range "source_file").asStr?, (Json.get range "end").asInt? with
      | some file, some stop => some (file, stop)
      | _, _ => none
    | _ => none
  | _ => none

/-- One turn of the search for the anchored entry of the greatest number. -/
def laterEnd (best : Option (Int × String × Int)) (entry : Json) : Option (Int × String × Int) :=
  match entryNum host entry, rangeEnd entry with
  | some num, some place =>
    match best with
    | none => some (num, place)
    | some (bestNum, _) => if bestNum < num then some (num, place) else best
  | _, _ => best

def planningCursor : Option (String × Int) :=
  match project.value "planning_cursor" with
  | .dict fields =>
    match (Json.get fields "source_file").asStr?, (Json.get fields "offset").asInt? with
    | some file, some offset => if 0 ≤ offset then some (file, offset) else none
    | _, _ => none
  | _ => none

def sourceIndex (rel : String) : Option Nat :=
  sources.findIdx? (fun doc => doc.relPath = rel)

def itemsOf : Except PlanFailure (List Json) :=
  match (project.value "episodes").itemsOrEmpty with
  | some items => .ok items
  | none => .error .typeError

/-- The end of the last anchored episode or the cursor, whichever is later. -/
def laterPlace (last cursor : String × Int) : String × Int :=
  if cursor.1 = last.1 then (last.1, max last.2 cursor.2)
  else match sourceIndex sources last.1, sourceIndex sources cursor.1 with
    | none, none => last
    | none, some _ => cursor
    | some _, none => last
    | some lastIndex, some cursorIndex => if cursorIndex < lastIndex then last else cursor

def effectiveStart (project : Project) : Except PlanFailure (String × Int) := do
  let items ← itemsOf project
  match items.foldl (laterEnd host) none, planningCursor project with
  | some (_, last), some cursor => .ok (laterPlace sources last cursor)
  | some (_, last), none => .ok last
  | none, some cursor => .ok cursor
  | none, none =>
    match sources with
    | [] => .error (.planning
        "source/ 下没有可规划的源文件（.txt/.md），请先上传小说原文")
    | first :: _ => .ok (first.relPath, 0)

def nextSourceRel (rel : String) : Option String :=
  match sourceIndex sources rel with
  | none => none
  | some index => (sources[index + 1]?).map SourceDoc.relPath

abbrev Fingerprints := List (String × String)

/-- The text of a file, from the sources read on entry or else from disk; a
file read later adds its fingerprint to the ones in use. -/
def sourceText (used : Fingerprints) (rel : String) : Except PlanFailure (Text × Fingerprints) :=
  match sources.find? (fun doc => doc.relPath = rel) with
  | some doc => .ok (doc.text, used)
  | none =>
    match loadNormalizedSource host around folder rel with
    | .ok text => .ok (text, used ++ [(rel, host.sha256 text)])
    | .error message => .error (.planning message)

/-- The place planning begins at, with the text of its file. -/
structure PlanStart where
  sourceRel : String
  start : Int
  text : Text
  used : Fingerprints

/-- The end of a search for text to plan. -/
inductive Skipped where
  | found (place : PlanStart)
  | exhausted (used : Fingerprints)

/-- Pass over blank rests, file by file. -/
def skipBlank (host : Host) (around : Surroundings) (folder : SourceFolder)
    (sources : List SourceDoc) :
    Nat → PlanStart → Except PlanFailure Skipped
  | fuel, here =>
    if !isBlank (sliceFrom here.text here.start) then .ok (.found here)
    else match nextSourceRel sources here.sourceRel, fuel with
      | none, _ => .ok (.exhausted here.used)
      | some _, 0 => .error .unending
      | some next, fuel + 1 => do
          let (text, used) ← sourceText host around folder sources here.used next
          skipBlank host around folder sources fuel
            { sourceRel := next
              start := 0
              text := text
              used := used }

def settingInt (key : String) (default : Int) : Int :=
  match project.value key with
  | .int value => if 1 ≤ value then value else default
  | _ => default

/-- A plan call between its read and its commit. -/
structure PlanCall where
  startRef : String × Int
  place : PlanStart
  windowIsFinal : Bool
  drafts : List EpisodeDraft
  ends : List Nat

structure EpisodePlanSummary where
  episode : Int
  title : String
  hook : String
  ledgerStatus : String

structure PlanResult where
  episodes : List EpisodePlanSummary
  cursor : Json
  sourceExhausted : Bool
  staleEpisodes : List Int
  totalPlanned : Nat

def countPlannedEpisodes : Nat :=
  ((rawEpisodes project).filterMap (entryNum host)).length

def exhaustedResult : PlanResult :=
  { episodes := []
    cursor := project.value "planning_cursor"
    sourceExhausted := true
    staleEpisodes := []
    totalPlanned := countPlannedEpisodes host project }

/-- What a read leads to: a batch to commit, fingerprints to record because
nothing is left to plan, or the end of the call. -/
inductive PlanRead where
  | batch (call : PlanCall)
  | backfill (used : Fingerprints)
  | finished (result : PlanResult)

/-- Orphan registration and the checks that open every plan call. -/
def openLedger : Except PlanFailure Project := do
  let healed := registerOrphanEpisodeEntries host around folder project
  checkSourceRanges host healed
  checkSourceFingerprints host healed (discoverSources host folder)
  return healed

/-- The place of the next batch. -/
def planStart (startRef : String × Int) : Except PlanFailure Skipped := do
  let sources := discoverSources host folder
  let (text, used) ← sourceText host around folder sources
    (computeSourceFingerprints host sources) startRef.1
  require (startRef.2 ≤ text.length) (PlanFailure.planning
    ("规划起点越界：" ++ startRef.1 ++ " 长度 " ++ toString text.length ++
      "，起点 " ++ toString startRef.2 ++ "；请检查账本"))
  skipBlank host around folder sources sources.length
    { sourceRel := startRef.1
      start := startRef.2
      text := text
      used := used }

def windowEnd (place : PlanStart) : Int :=
  let windowChars := settingInt project "planning_window_chars" 30000
  if host.withinElastic (place.text.length - place.start) windowChars then
    place.text.length
  else place.start + windowChars

def draftBatch (maxAttempts : Nat) (project : Project)
    (responses : Nat → Response) (startRef : String × Int) (place : PlanStart) :
    Except PlanFailure PlanCall := do
  let maxEpisodes := settingInt project "planning_max_episodes" 20
  let stop := windowEnd host project place
  let window := slice place.text place.start stop
  let windowIsFinal := decide ((place.text.length : Int) ≤ stop)
  let (drafts, ends) ← requestValidatedDrafts host maxAttempts responses
    window windowIsFinal maxEpisodes.toNat maxAttempts 0 []
  return { startRef := startRef
           place := place
           windowIsFinal := windowIsFinal
           drafts := drafts
           ends := ends }

def readPlan (maxAttempts : Nat) (around : Surroundings)
    (folder : SourceFolder) (project : Project) (responses : Nat → Response) :
    Except PlanFailure PlanRead := do
  let healed ← openLedger host around folder project
  let startRef ← effectiveStart host (discoverSources host folder) healed
  let found ← planStart host around folder startRef
  match found with
  | .found place =>
    let call ← draftBatch host maxAttempts healed responses startRef place
    return .batch call
  | .exhausted used =>
    match healed.value sourceFingerprintsKey with
    | .null => return .backfill used
    | _ => return .finished (exhaustedResult host healed)

end MatrixSpooll.Episode
