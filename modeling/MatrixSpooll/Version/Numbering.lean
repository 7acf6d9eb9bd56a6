import MatrixSpooll.Version.Manager
import MatrixSpooll.Library.Text

/-!
# Numbered histories

A history is sound when every record carries its own number and snapshot path,
the numbers of a resource grow in the order of the history, and the selected
number is `0` or recorded.  Appending the next version keeps a history sound as
long as the metadata does not carry the record's own keys; the name of its
snapshot is one that no record of any resource has.
-/

namespace MatrixSpooll.Version

open Library List

/-! ## Snapshot names -/

/-- The part of a snapshot's name behind its directory. -/
def snapshotName (identity : Identity) (version : Int) (timestamp : Timestamp) : Text :=
  (identity.resourceId.toList ++ '_' :: 'v' :: (toString version).toList) ++
    '_' :: timestamp.text.toList ++
    (versionExtension identity.resourceType).toList

variable (identity : Identity) (version : Int) (timestamp : Timestamp)

theorem toList_versionRelPath :
    (versionRelPath identity version timestamp).toList = "versions/".toList ++
      (identity.resourceType.toList ++ '/' :: snapshotName identity version timestamp) := by
  unfold versionRelPath snapshotName
  simp only [String.toList_append, append_assoc]
  rfl

theorem slash_notMem_of_mem_resourceTypes : ∀ name ∈ resourceTypes, '/' ∉ name.toList := by
  decide +kernel

theorem versionRelPath_injective {identity identity' : Identity}
    {version version' : Int} {timestamp timestamp' : Timestamp}
    (supported : identity.resourceType ∈ resourceTypes)
    (supported' : identity'.resourceType ∈ resourceTypes)
    (same : versionRelPath identity version timestamp =
      versionRelPath identity' version' timestamp') :
    identity = identity' ∧ toString version = toString version' := by
  have chars := congrArg String.toList same
  rw [toList_versionRelPath, toList_versionRelPath] at chars
  obtain ⟨sameType, sameName⟩ := cut_at_first (slash_notMem_of_mem_resourceTypes _ supported)
    (slash_notMem_of_mem_resourceTypes _ supported') (append_cancel_left chars)
  have typesEqual := String.toList_injective sameType
  unfold snapshotName at sameName
  rw [typesEqual] at sameName
  -- The extension goes with the type; the time and then the number are cut
  -- off at the last underscore, so the id may contain underscores itself.
  obtain ⟨sameStem, _⟩ := cut_at_last timestamp.noUnderscore
    timestamp'.noUnderscore (append_cancel_right sameName)
  have free : ∀ number : Int, '_' ∉ 'v' :: (toString number).toList := by
    intro number member
    rcases mem_cons.mp member with isV | digit
    · revert isV
      decide
    · exact underscore_notMem_toString number digit
  obtain ⟨sameId, sameNumber⟩ := cut_at_last (free version) (free version') sameStem
  have idsEqual := String.toList_injective sameId
  have numbersEqual := String.toList_injective (cons.inj sameNumber).2
  constructor
  · cases identity
    cases identity'
    cases typesEqual
    cases idsEqual
    rfl
  · exact numbersEqual

theorem projectFile_versionRelPath : projectFile (versionRelPath identity version timestamp) =
      .managed (versionRelPath identity version timestamp) := by
  unfold projectFile
  rw [if_pos]
  rw [toList_versionRelPath]
  exact isPrefixOf_iff_prefix.mpr ⟨_, rfl⟩

theorem versionRelPath_ne_versionsFile : Path.managed (versionRelPath identity version timestamp) ≠
      versionsFile := by
  intro same
  have chars := congrArg String.toList (Path.managed.inj same)
  rw [toList_versionRelPath] at chars
  have rest := append_cancel_left (chars.trans (by rfl : "versions/versions.json".toList =
      "versions/".toList ++ "versions.json".toList))
  have slash : '/' ∈ "versions.json".toList := by
    rw [← rest]
    exact mem_append_right _ mem_cons_self
  revert slash
  decide

/-! ## Records -/

/-- The number of a record. -/
def versionNumber (record : VersionRecord) : Option Int :=
  asNumber (versionOf record)

/-- Metadata that leaves the number and the snapshot of the record alone. -/
def ExtraOnly (metadata : List (String × Json)) : Prop :=
  ∀ entry ∈ metadata, entry.1 ≠ "version" ∧ entry.1 ≠ "file"

/-- The record carries this number and the name of its snapshot. -/
structure Records (identity : Identity) (record : VersionRecord) (number : Nat) : Prop where
  version : record.lookup "version" = some (.int number)
  file : ∃ timestamp, record.lookup "file" = some (.str (versionRelPath identity number timestamp))

theorem lookup_foldl_put {key : String} {metadata : List (String × Json)}
    (other : ∀ entry ∈ metadata, entry.1 ≠ key) (record : List (String × Json)) :
    (metadata.foldl (fun record entry => Json.put record entry.1 entry.2)
      record).lookup key = record.lookup key := by
  induction metadata generalizing record with
  | nil => rfl
  | cons entry rest induction =>
    rw [foldl_cons, induction (fun later member =>
      other later (mem_cons_of_mem entry member)), Json.lookup_put,
      if_neg (fun same => other entry mem_cons_self same.symm)]

theorem records_newRecord (number : Nat) (timestamp : Timestamp)
    (prompt createdAt : String) {metadata : List (String × Json)}
    (extra : ExtraOnly metadata) (previous : Int) :
    Records identity (newRecord number
      (versionRelPath identity number timestamp) prompt createdAt metadata
      previous) number := by
  unfold newRecord
  constructor
  · rw [Json.lookup_put, if_neg (by decide), lookup_foldl_put
      (fun entry member => (extra entry member).1)]
    rfl
  · refine ⟨timestamp, ?_⟩
    rw [Json.lookup_put, if_neg (by decide), lookup_foldl_put
      (fun entry member => (extra entry member).2)]
    rfl

namespace Records

variable {identity : Identity} {record : VersionRecord} {number : Nat}

variable (records : Records identity record number)
include records

theorem versionNumber_eq : versionNumber record = some (number : Int) := by
  unfold versionNumber versionOf
  rw [records.version]
  rfl

theorem get_version : Json.get record "version" = .int number := by
  unfold Json.get
  rw [records.version]
  rfl

theorem recordFile_eq : ∃ timestamp, recordFile record =
      some (.managed (versionRelPath identity number timestamp)) := by
  obtain ⟨timestamp, named⟩ := records.file
  refine ⟨timestamp, ?_⟩
  unfold recordFile Json.get
  rw [named, ← projectFile_versionRelPath]
  rfl

end Records

/-! ## Sound histories -/

/-- The history of one resource. -/
structure ResourceData.Sound (identity : Identity) (resource : ResourceData) : Prop where
  supported : identity.resourceType ∈ resourceTypes
  recorded : ∀ record ∈ resource.versions,
    ∃ number : Nat, 0 < number ∧ Records identity record number
  increasing : (resource.versions.filterMap versionNumber).Pairwise
    (fun earlier later => earlier < later)
  selected : ∃ number : Nat, resource.currentVersion = .int number ∧
    (number = 0 ∨ ∃ record ∈ resource.versions, Records identity record number)

def SoundHistory (data : VersionsData) : Prop :=
  ∀ identity resource, data.get? identity = some resource → resource.Sound identity

/-- The records of a resource, in the order they were made. -/
def recordsOf (data : VersionsData) (identity : Identity) : List VersionRecord :=
  ((data.get? identity).getD .fresh).versions

/-- Every record of `base` is still there, in its place. -/
def Extends (base data : VersionsData) : Prop :=
  ∀ identity, recordsOf base identity <+: recordsOf data identity

theorem le_foldl_max (numbers : List Int) (first : Int) :
    first ≤ numbers.foldl max first ∧ ∀ number ∈ numbers, number ≤ numbers.foldl max first := by
  induction numbers generalizing first with
  | nil => simp
  | cons head rest induction =>
    obtain ⟨least, others⟩ := induction (max first head)
    rw [foldl_cons]
    constructor
    · omega
    · intro number member
      rcases mem_cons.mp member with isHead | later
      · omega
      · exact others number later

theorem le_maximum {numbers : List Int} {number : Int}
    (member : number ∈ numbers) : number ≤ maximum numbers := by
  cases numbers with
  | nil => cases member
  | cons head rest =>
    obtain ⟨least, others⟩ := le_foldl_max rest head
    rcases mem_cons.mp member with isHead | later
    · rw [isHead]
      exact least
    · exact others number later

theorem maximum_nonneg {numbers : List Int}
    (nonneg : ∀ number ∈ numbers, 0 ≤ number) : 0 ≤ maximum numbers := by
  cases numbers with
  | nil => exact Int.le_refl 0
  | cons head rest =>
    exact Int.le_trans (nonneg head mem_cons_self) (le_foldl_max rest head).1

namespace ResourceData.Sound

variable {identity : Identity} {resource : ResourceData}

theorem fresh (supported : identity.resourceType ∈ resourceTypes) :
    ResourceData.fresh.Sound identity :=
  { supported := supported
    recorded := nofun
    increasing := Pairwise.nil
    selected := ⟨0, rfl, .inl rfl⟩ }

variable (sound : resource.Sound identity)
include sound

theorem mapM_versionNumber : resource.versions.mapM versionNumber =
      some (resource.versions.filterMap versionNumber) := by
  have recorded := sound.recorded
  generalize resource.versions = records at recorded
  induction records with
  | nil => rfl
  | cons record rest induction =>
    obtain ⟨number, _, carries⟩ := recorded record mem_cons_self
    have later := induction (fun other member =>
      recorded other (mem_cons_of_mem record member))
    rw [mapM_cons, carries.versionNumber_eq, later, filterMap_cons_some carries.versionNumber_eq]
    rfl

theorem nextVersion_eq : ∃ number : Nat, 0 < number ∧
      nextVersion resource.versions = some (number : Int) ∧
      ∀ other ∈ resource.versions.filterMap versionNumber, other < (number : Int) := by
  have nonneg : ∀ number ∈ resource.versions.filterMap versionNumber, 0 ≤ number := by
    intro number member
    obtain ⟨record, isRecord, numbered⟩ := mem_filterMap.mp member
    obtain ⟨natural, _, carries⟩ := sound.recorded record isRecord
    rw [carries.versionNumber_eq] at numbered
    cases numbered
    exact Int.natCast_nonneg natural
  have atLeast := maximum_nonneg nonneg
  refine ⟨(maximum (resource.versions.filterMap versionNumber) + 1).toNat, by omega, ?_, ?_⟩
  · have collected := sound.mapM_versionNumber
    unfold nextVersion
    show Option.map _ (resource.versions.mapM versionNumber) = _
    rw [collected, Option.map_some]
    congr 1
    omega
  · intro other member
    have atMost := le_maximum member
    omega

theorem append {number : Nat} (positive : 0 < number)
    (above : ∀ other ∈ resource.versions.filterMap versionNumber,
      other < (number : Int)) (timestamp : Timestamp)
    (prompt createdAt : String) {metadata : List (String × Json)}
    (extra : ExtraOnly metadata) (remember : Json → Int) (selects : Bool) :
    (resource.append number (versionRelPath identity number timestamp) prompt
      createdAt metadata remember selects).Sound identity := by
  have carries := records_newRecord identity number timestamp prompt createdAt
    extra (remember resource.currentVersion)
  constructor
  · exact sound.supported
  · intro record member
    rcases mem_append.mp member with older | isNew
    · exact sound.recorded record older
    · rw [mem_singleton.mp isNew]
      exact ⟨number, positive, carries⟩
  · show ((resource.versions ++ _).filterMap versionNumber).Pairwise _
    rw [filterMap_append, filterMap_cons_some
      carries.versionNumber_eq, filterMap_nil, pairwise_append]
    refine ⟨sound.increasing, pairwise_singleton _ _, ?_⟩
    intro earlier member later isNew
    rw [mem_singleton.mp isNew]
    exact above earlier member
  · cases selects with
    | true => exact ⟨number, rfl, .inr ⟨_, mem_append_right _ mem_cons_self, carries⟩⟩
    | false =>
      obtain ⟨current, isCurrent, known⟩ := sound.selected
      refine ⟨current, isCurrent, known.imp_right ?_⟩
      intro found
      obtain ⟨record, member, numbered⟩ := found
      exact ⟨record, mem_append_left _ member, numbered⟩

theorem select {number : Nat} (known : number = 0 ∨
      ∃ record ∈ resource.versions, Records identity record number) :
    ({ resource with currentVersion := .int number } : ResourceData).Sound
      identity :=
  { supported := sound.supported
    recorded := sound.recorded
    increasing := sound.increasing
    selected := ⟨number, rfl, known⟩ }

end ResourceData.Sound

theorem SoundHistory.empty : SoundHistory Dict.empty := by
  intro identity resource found
  cases found

theorem SoundHistory.put {data : VersionsData} (sound : SoundHistory data)
    {identity : Identity} {resource : ResourceData} (ofResource : resource.Sound identity) :
    SoundHistory (data.put identity resource) := by
  intro other stored found
  rw [Dict.get?_put] at found
  split at found
  · next same =>
      cases found
      rw [same]
      exact ofResource
  · exact sound other stored found

/-- A path that some record of the history points to. -/
def Registered (data : VersionsData) (path : Path) : Prop :=
  ∃ identity resource record, data.get? identity = some resource ∧
    record ∈ resource.versions ∧ recordFile record = some path

theorem SoundHistory.registered {data : VersionsData} (sound : SoundHistory data) {path : Path}
    (registered : Registered data path) :
    ∃ identity, ∃ number : Nat, ∃ timestamp resource, data.get? identity = some resource ∧
      identity.resourceType ∈ resourceTypes ∧
      (number : Int) ∈ resource.versions.filterMap versionNumber ∧
      path = .managed (versionRelPath identity number timestamp) := by
  obtain ⟨identity, resource, record, found, member, named⟩ := registered
  have ofResource := sound identity resource found
  obtain ⟨number, _, carries⟩ := ofResource.recorded record member
  obtain ⟨timestamp, isFile⟩ := carries.recordFile_eq
  rw [isFile] at named
  cases named
  exact ⟨identity, number, timestamp, resource, found, ofResource.supported,
    mem_filterMap.mpr ⟨record, member, carries.versionNumber_eq⟩, rfl⟩

end MatrixSpooll.Version
