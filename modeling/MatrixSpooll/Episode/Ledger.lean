import MatrixSpooll.Library.Dict
import MatrixSpooll.Library.Json
import MatrixSpooll.Library.Listing
import MatrixSpooll.Library.Text

/-!
# The episode ledger

`project.json` keeps the ledger: the `episodes` list, the `planning_cursor` and
the fingerprints of the source texts.  The folder `source/` holds the source
texts and, beside them, the derived file `episode_N.txt` of every episode.
-/

namespace MatrixSpooll.Episode

open Library

/-- What the language and its libraries compute from texts.
`withinElastic remaining window` is the comparison of an integer with the
floating point product `window * 1.2`. -/
structure Host where
  nfc : Text → Text
  isDigit : String → Bool
  parseInt : String → Option Int
  sha256 : Text → String
  repr : Text → String
  withinElastic : Int → Int → Bool

def normalizeSourceText (host : Host) (text : Text) : Text :=
  unifyNewlines (host.nfc text)

structure SourceDoc where
  relPath : String
  text : Text
deriving DecidableEq

/-- One directory entry: a file that decodes, a file that does not, a link to
a file, a dangling link, or a directory. -/
inductive FileNode where
  | text (content : Text)
  | binary (bytes : List UInt8)
  | link (target : Option Text)
  | dangling
  | directory

namespace FileNode

def isFile : FileNode → Bool
  | .text _ => true
  | .binary _ => true
  | .link _ => true
  | .dangling => false
  | .directory => false

def isSymlink : FileNode → Bool
  | .link _ => true
  | .dangling => true
  | _ => false

def readTextOrNone : FileNode → Option Text
  | .text content => some content
  | .link target => target
  | _ => none

end FileNode

structure SourceFolder where
  isLink : Bool
  listing : Listing String FileNode

/-- What a step finds in the project outside `source/`, and the texts of
failed reads. -/
structure Surroundings where
  fileExists : String → Bool
  scriptFile : Int → Bool
  stepDraft : Int → Bool
  productNums : List Nat
  stepRevision : Int → Option String
  outside : String → Except String Text
  readError : String → String

/-- `PurePath(name).suffix`. -/
def pathSuffix (name : Text) : Text :=
  let ending := (name.reverse.takeWhile (fun char => char ≠ '.')).reverse
  let stem := name.length - ending.length - 1
  if name.contains '.' ∧ 0 < stem ∧ ending ≠ [] then '.' :: ending else []

def isSourceTextSuffix (suffix : Text) : Bool :=
  let lower := suffix.map Char.toLower
  lower = ".txt".toList || lower = ".md".toList

/-- The number in a name `episode_N.txt`; only ASCII digits count. -/
def episodeFileNum (name : String) : Option Nat :=
  match name.toList.dropPrefix? "episode_".toList with
  | none => none
  | some rest =>
    match rest.dropSuffix? ".txt".toList with
    | none => none
    | some digits =>
      if digits ≠ [] ∧ digits.all Char.isDigit then
        some (Nat.ofDigitChars 10 digits 0)
      else none

def isHidden (name : String) : Bool :=
  match name.toList with
  | [] => false
  | first :: _ => first = '_' || first = '.'

variable (host : Host) (around : Surroundings)

def sourceDoc (entry : String × FileNode) : Option SourceDoc :=
  if !entry.2.isFile || isHidden entry.1 then none
  else if !isSourceTextSuffix (pathSuffix entry.1.toList) ||
      (episodeFileNum entry.1).isSome then none
  else entry.2.readTextOrNone.map (fun text =>
    { relPath := "source/" ++ entry.1
      text := normalizeSourceText host text })

variable (folder : SourceFolder) (project : Project)

def discoverSources : List SourceDoc :=
  folder.listing.entries.filterMap (sourceDoc host)

def computeSourceFingerprints (sources : List SourceDoc) : List (String × String) :=
  sources.map (fun doc => (doc.relPath, host.sha256 doc.text))

/-- The path of a recorded field whose text has changed or gone; values that
are no texts count as unrecorded. -/
def mismatchedField (current : List (String × String)) (field : String × Json) : Option String :=
  match field.2 with
  | .str fingerprint =>
    if current.lookup field.1 ≠ some fingerprint then some field.1 else none
  | _ => none

def mismatchedSourceFingerprints (recorded : Json) (sources : List SourceDoc) : List String :=
  match recorded with
  | .dict fields =>
    (fields.filterMap (mismatchedField
      (computeSourceFingerprints host sources))).dedup.insertionSort
        (fun first second => first ≤ second)
  | _ => []

abbrev Project := Dict String Json

def Project.value (key : String) : Json :=
  (project.get? key).getD .null

def parseEpisodeNum : Json → Option Int
  | .int value => some value
  | .str value => if host.isDigit value then host.parseInt value else none
  | _ => none

/-- The number of an entry that is a mapping. -/
def entryNum : Json → Option Int
  | .dict fields => parseEpisodeNum host (Json.get fields "episode")
  | _ => none

def parseSourceRange (entry : Json) : Option (String × Int × Int) :=
  match entry with
  | .dict fields =>
    match Json.get fields "source_range" with
    | .dict range =>
      match (Json.get range "source_file").asStr?,
        (Json.get range "start").asInt?, (Json.get range "end").asInt? with
      | some file, some start, some stop => some (file, start, stop)
      | _, _, _ => none
    | _ => none
  | _ => none

/-- The `episodes` value where it is a list, else nothing. -/
def rawEpisodes : List Json :=
  match project.value "episodes" with
  | .list items => items
  | _ => []

def episodesWithoutSourceRange : List Int :=
  let nums := (rawEpisodes project).filterMap (fun entry =>
    if (parseSourceRange entry).isNone then entryNum host entry else none)
  nums.dedup.insertionSort (fun first second => first ≤ second)

def numOrZero (entry : Json) : Int :=
  (entryNum host entry).getD 0

/-- Sort by number, which needs every number to be readable. -/
def sortEpisodesIfPossible (episodes : List Json) : List Json :=
  if episodes.all (fun entry => (entryNum host entry).isSome) then
    episodes.insertionSort (fun first second => numOrZero host first ≤ numOrZero host second)
  else episodes

def derivedFileName (num : Int) : String := "episode_" ++ toString num ++ ".txt"

/-- The number of a derived file; dangling links count, directories do not. -/
def aliasNum (entry : String × FileNode) : Option Nat :=
  if entry.2.isFile || entry.2.isSymlink then episodeFileNum entry.1 else none

/-- The files of one number, with every zero padding. -/
def episodeFileAliases (num : Nat) : List (String × FileNode) :=
  folder.listing.entries.filter (fun entry => aliasNum entry = some num)

def aliasNums : List Nat :=
  (folder.listing.entries.filterMap aliasNum).dedup

/-- The file `discover_episode_files` picks for a number. -/
def episodeFile (num : Nat) : Option String :=
  ((episodeFileAliases folder num).find? (fun entry => entry.2.isFile)).map Prod.fst

/-- The numbers `discover_episode_files` finds a readable file for. -/
def discoverEpisodeFiles : List Nat :=
  (aliasNums folder).filter (fun num => (episodeFile folder num).isSome)

def episodeScriptRelpath (num : Int) : String :=
  "scripts/episode_" ++ toString num ++ ".json"

def hasDownstreamProducts (num : Int) (entry : List (String × Json)) : Bool :=
  (match Json.get entry "script_file" with
    | .str file => around.fileExists file
    | _ => false) ||
    around.scriptFile num || around.stepDraft num

def orphanEntry (num : Int) : Json :=
  let fields := [("episode", .int num), ("title", .str ""),
    ("script_file", .str (episodeScriptRelpath num))]
  let status :=
    if hasDownstreamProducts around num fields then "consumed" else "planned"
  .dict (fields ++ [("ledger_status", .str status)])

/-- Numbers with a derived file and no entry, in order. -/
def orphanNums (episodes : List Json) : List Nat :=
  let known := episodes.filterMap (entryNum host)
  ((discoverEpisodeFiles folder).insertionSort (fun first second => first ≤ second)).filter
      (fun num : Nat => (num : Int) ∉ known)

def registerOrphanEpisodeEntries : Project :=
  match (project.get? "episodes").getD (.list []) with
  | .list episodes =>
    let orphans := (orphanNums host folder episodes).map (fun num : Nat => orphanEntry around num)
    project.put "episodes" (.list (sortEpisodesIfPossible host (episodes ++ orphans)))
  | _ => project

/-- `_load_normalized_source`: files beside the sources are read from the
listing, everything else from outside the folder. -/
def loadNormalizedSource (rel : String) : Except String Text :=
  let named := folder.listing.entries.find? (fun entry => "source/" ++ entry.1 = rel)
  match if folder.isLink then none else named with
  | none => around.outside rel
  | some (_, node) =>
    if !node.isFile then .error ("源文件不存在：" ++ rel)
    else match node.readTextOrNone with
      | some text => .ok (normalizeSourceText host text)
      | none => .error ("源文件读取失败：" ++ rel ++ ": " ++ around.readError rel)

end MatrixSpooll.Episode
