import MatrixSpooll.Episode.Planner

/-!
# Source texts as the workflow status reads them

The status of a project reads the sources once, to compute their revision, and
decides from that reading whether every source has been planned.  It looks at
the folder more strictly than the planner: a link, a directory or an
undecodable file under the name of a source blocks the whole reading.
-/

namespace MatrixSpooll.Episode

open Library

/-- A source as it was read: its name on disk, its canonical path, its text. -/
structure SourceFileRead where
  name : String
  relPath : String
  text : Text

structure SourceRevisionBlocker where
  code : String
  path : String
  reason : String

structure SourceRevisionResult where
  files : List String
  blockers : List SourceRevisionBlocker
  documents : List SourceFileRead

def blocked (blocker : SourceRevisionBlocker) : SourceRevisionResult :=
  { files := []
    blockers := [blocker]
    documents := [] }

variable (host : Host)

/-- `unicodedata.normalize("NFC", path)`. -/
def nfcPath (path : String) : String :=
  String.ofList (host.nfc path.toList)

/-- Names of source texts; what stands under the name is not looked at. -/
def isSourceName (name : String) : Bool :=
  !isHidden name && isSourceTextSuffix (pathSuffix name.toList) && (episodeFileNum name).isNone

variable (folder : SourceFolder)

/-- The canonical path and the entry of every source, in the planner's
order. -/
def allSourcePaths : Except SourceRevisionBlocker (List (String × String × FileNode)) :=
  if folder.isLink then
    .error
      { code := "source_symlink"
        path := "source"
        reason := "source directory must not be a symbolic link" }
  else
    .ok ((folder.listing.entries.filter (fun entry => isSourceName entry.1)).map
        (fun entry => (nfcPath host ("source/" ++ entry.1), entry)))

/-- Read one source, or tell why it cannot be trusted. -/
def readSource (rel name : String) : FileNode → Except SourceRevisionBlocker SourceFileRead
  | .text content =>
    .ok
      { name := name
        relPath := rel
        text := content }
  | .binary _ =>
    .error
      { code := "source_unreadable"
        path := rel
        reason := "source file is not valid UTF-8" }
  | .directory =>
    .error
      { code := "source_not_file"
        path := rel
        reason := "source path is not a regular file" }
  | .link _ | .dangling =>
    .error
      { code := "source_symlink"
        path := rel
        reason := "source file must not be a symbolic link" }

/-- Read the sources in turn; `seen` are the canonical paths read so far. -/
def readSources : List String → List (String × String × FileNode) →
    Except SourceRevisionBlocker (List SourceFileRead)
  | _, [] => .ok []
  | seen, (rel, name, node) :: rest => do
      require (rel ∉ seen)
        { code := "source_path_collision"
          path := rel
          reason := "source paths collide after Unicode normalization" }
      let read ← readSource rel name node
      let reads ← readSources (rel :: seen) rest
      return read :: reads

/-- `compute_source_revision` for all sources, without the digest. -/
def computeSourceRevision : SourceRevisionResult :=
  match allSourcePaths host folder with
  | .error blocker => blocked blocker
  | .ok paths =>
    match readSources [] paths with
    | .error blocker => blocked blocker
    | .ok reads =>
      { files := paths.map Prod.fst
        blockers := []
        documents := reads }

/-- The sources of a reading in the coordinates of the ledger. -/
def planningDocs (source : Option SourceRevisionResult) : List SourceDoc :=
  match source with
  | none => []
  | some source =>
    if source.blockers.isEmpty then
      source.documents.map (fun document =>
        { relPath := "source/" ++ document.name
          text := normalizeSourceText host document.text })
    else []

/-- `dict(recorded) == current`, both with distinct keys. -/
def sameFingerprints (recorded : List (String × Json)) (current : Fingerprints) : Bool :=
  recorded.length = current.length && current.all (fun field =>
    (Json.get recorded field.1).asStr? = some field.2)

/-- Whether a cursor stands at the end of the last source. -/
def cursorAtEnd (cursor : Json) (lastFile : String) (planningSources : List SourceDoc) : Bool :=
  match cursor with
  | .dict fields =>
    match (Json.get fields "source_file").asStr?, (Json.get fields "offset").asInt? with
    | some rel, some offset =>
      nfcPath host rel = lastFile &&
        match planningSources.filter (fun doc =>
          nfcPath host doc.relPath = nfcPath host rel) with
        | [doc] => doc.text.length ≤ offset
        | _ => false
    | _, _ => false
  | _ => false

def planningComplete (project : Project)
    (source : Option SourceRevisionResult) (planningSources : List SourceDoc) :
    Bool :=
  match source.bind (fun source => source.files.getLast?) with
  | none => false
  | some lastFile =>
    match project.value sourceFingerprintsKey with
    | .dict recorded =>
      !recorded.isEmpty && sameFingerprints recorded
          (computeSourceFingerprints host planningSources) &&
        cursorAtEnd host (project.value "planning_cursor") lastFile planningSources
    | _ => false

/-- What the status of a project says about its planning. -/
def statusPlanningComplete (project : Project) : Bool :=
  let source := some (computeSourceRevision host folder)
  planningComplete host project source (planningDocs host source)

end MatrixSpooll.Episode
