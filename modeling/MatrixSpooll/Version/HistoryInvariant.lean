import MatrixSpooll.Version.PaidCommit
import MatrixSpooll.Version.Retreat
import MatrixSpooll.Library.Transition

/-!
# Version histories over whole runs

A run is any sequence of calls to the version manager, each with its own
failures, and of changes that the rest of the project makes to media files.
From an empty history every reachable disk carries sound histories, records
and their snapshots stay what they are for the rest of the run, and a call that
selects a version leaves the canonical file with the bytes of its snapshot.
`add_version` is the exception by design: it selects without touching the
canonical file.
-/

namespace MatrixSpooll.Version

open Library Attempt

variable {Bytes : Type}

/-- The calls that change the history or select a version. -/
inductive Call where
  | addVersion (identity : Identity) (prompt : String)
      (sourceFile : Option String) (metadata : List (String × Json))
  | commitStagedVersion (identity : Identity) (prompt : String)
      (stagedFile currentFile : String) (onCommit : Bool) (metadata : List (String × Json))
  | commitStagedVersions (commits : List StagedVersionCommit)
      (onCommit : Bool)
  | commitStagedPaidVersion (identity : Identity) (prompt : String)
      (stagedFile currentFile : String) (selectCurrent : SelectCurrent)
      (expectedCurrent : Option Int) (onSelect : Bool) (metadata : List (String × Json))
  | rejectCurrentVersion (identity : Identity) (rejectedVersion : Int)
      (goBackTo : Option Int) (currentFile : String) (onReject : Bool)
  | restoreVersion (identity : Identity) (version : Int)
      (currentFile : String) (onRestore : Bool)

/-- A resource and the canonical file that a call selected its version
for. -/
abbrev Selection := Identity × String

section Calls

variable (codec : VersionsCodec Bytes) (environment : Environment Bytes)

/-- The call as a computation that returns what it selected. -/
def Call.stage : Call → Stage Bytes (List Selection)
  | .addVersion identity prompt sourceFile metadata => do
      let _ ← Version.addVersion codec environment identity prompt sourceFile metadata
      pure [(identity, (resourceRelativePath identity).getD "")]
  | .commitStagedVersion identity prompt stagedFile currentFile onCommit
      metadata => do
      let _ ← Version.commitStagedVersion codec environment identity prompt
        stagedFile currentFile onCommit metadata
      pure [(identity, currentFile)]
  | .commitStagedVersions commits onCommit => do
      let _ ← Version.commitStagedVersions codec environment commits onCommit
      pure (commits.map (fun commit => (commit.identity, commit.currentFile)))
  | .commitStagedPaidVersion identity prompt stagedFile currentFile
      selectCurrent expectedCurrent onSelect metadata => do
      let commit ← Version.commitStagedPaidVersion codec environment identity
        prompt stagedFile currentFile selectCurrent expectedCurrent onSelect
        metadata
      pure (if commit.selected then [(identity, currentFile)] else [])
  | .rejectCurrentVersion identity rejectedVersion goBackTo currentFile
      onReject => do
      let rejected ← Version.rejectCurrentVersion codec environment identity
        rejectedVersion goBackTo currentFile onReject
      pure (if rejected then [(identity, currentFile)] else [])
  | .restoreVersion identity version currentFile onRestore => do
      let _ ← Version.restoreVersion codec environment identity version currentFile onRestore
      pure [(identity, currentFile)]

/-- What the call returns or raises, and the disk it leaves. -/
def Call.run (call : Call) (disk : Disk Bytes) :
    Except VersionError (List Selection) × Disk Bytes :=
  disk.run (call.stage codec environment)

end Calls

/-- Calls whose metadata leaves the record's own keys alone and whose staged
files are not canonical files that the same call is to keep. -/
def Call.Plain : Call → Prop
  | .addVersion _ _ _ metadata => ExtraOnly metadata
  | .commitStagedVersion _ _ _ _ _ metadata => ExtraOnly metadata
  | .commitStagedVersions commits _ =>
    (∀ commit ∈ commits, ExtraOnly commit.metadata) ∧ KeepsCanonical commits
  | .commitStagedPaidVersion _ _ stagedFile currentFile _ _ _ metadata =>
    ExtraOnly metadata ∧ stagedFile ≠ currentFile
  | .rejectCurrentVersion .. => True
  | .restoreVersion .. => True

def Call.isAdd : Call → Bool
  | .addVersion .. => true
  | _ => false

/-- The canonical file holds the bytes of the selected version's snapshot; a
resource that points to no version has no canonical file. -/
def Agrees (codec : VersionsCodec Bytes) (disk : Disk Bytes) (selection : Selection) : Prop :=
  ∃ data resource, disk.history? codec = some data ∧
    data.get? selection.1 = some resource ∧ ((resource.currentVersion = .int 0 ∧
        disk.files (.media selection.2) = none) ∨
      ∃ (number : Nat) (record : VersionRecord) (path : Path) (bytes : Bytes),
        resource.currentVersion = .int number ∧
        record ∈ resource.versions ∧
        versionNumber record = some (number : Int) ∧
        recordFile record = some path ∧ disk.files path = some bytes ∧
        disk.files (.media selection.2) = some bytes)

variable {codec : VersionsCodec Bytes}

theorem Selects.agrees {identity : Identity} {currentFile : String}
    {working : Working Bytes} (selects : Selects identity currentFile working)
    (saved : Saved codec working) :
    Agrees codec working.toDisk (identity, currentFile) := by
  obtain ⟨number, bytes, points, keeps, canonical⟩ := selects
  obtain ⟨resource, found, isCurrent⟩ := points
  obtain ⟨stored, record, timestamp, isStored, member, carries, named, held⟩ := keeps
  cases found.symm.trans isStored
  exact ⟨working.data, resource, saved.history?_eq, found, .inr ⟨number,
    record, _, bytes, isCurrent, member, carries.versionNumber_eq, named,
    held, canonical⟩⟩

theorem Retreats.agrees {identity : Identity} {currentFile : String}
    {working : Working Bytes} (retreats : Retreats identity currentFile working)
    (saved : Saved codec working) :
    Agrees codec working.toDisk (identity, currentFile) := by
  rcases retreats with nothing | selects
  · obtain ⟨points, missing⟩ := nothing
    obtain ⟨resource, found, isCurrent⟩ := points
    exact ⟨working.data, resource, saved.history?_eq, found, .inl ⟨isCurrent, missing⟩⟩
  · exact selects.agrees saved

/-- What a disk with this history holds if a selected version is canonical. -/
theorem Agrees.of_pointer {disk : Disk Bytes} {selection : Selection} {data : VersionsData}
    {resource : ResourceData} (agrees : Agrees codec disk selection)
    (decoded : disk.history? codec = some data) (found : data.get? selection.1 = some resource)
    (points : resource.currentVersion ≠ .int 0) :
    ∃ record ∈ resource.versions, (versionNumber record).map .int = some resource.currentVersion ∧
      ∃ path, recordFile record = some path ∧ ∃ bytes, disk.files path = some bytes ∧
        disk.files (.media selection.2) = some bytes := by
  obtain ⟨_, _, isData, isResource, nothing | selected⟩ := agrees
  all_goals
    cases decoded.symm.trans isData
    cases found.symm.trans isResource
  · exact absurd nothing.1 points
  · obtain ⟨number, record, path, bytes, isCurrent, member, isNumber, named, held, canonical⟩ :=
      selected
    exact ⟨record, member, by rw [isNumber, isCurrent]; rfl, path, named, bytes, held, canonical⟩

section Steps

variable {codec : VersionsCodec Bytes} {environment : Environment Bytes}
  {disk : Disk Bytes} {base : VersionsData}

theorem Preserves.map {Value Result : Type} {working : Working Bytes}
    {operation : Stage Bytes Value} {goal : Value → Working Bytes → Prop}
    (preserves : Preserves codec disk base working operation goal)
    (view : Value → Result) {target : Result → Working Bytes → Prop}
    (onReturn : ∀ value final, goal value final → target (view value) final) :
    Preserves codec disk base working (do
        let value ← operation
        pure (view value)) target := by
  apply Ensures.seq preserves
  intro value final ended
  exact Ensures.pure ⟨ended.1, onReturn value final ended.2⟩

theorem Call.stage_preserves (decoded : disk.history? codec = some base)
    (sound : SoundHistory base) {call : Call} (plain : call.Plain) :
    Preserves codec disk base disk.start (call.stage codec environment)
      (fun selected final => call.isAdd = false →
        ∀ selection ∈ selected, Agrees codec final.toDisk selection) := by
  cases call with
  | addVersion identity prompt sourceFile metadata =>
    apply (addVersion_preserves decoded sound prompt sourceFile plain).map
    intro _ final _ never
    cases never
  | commitStagedVersion identity prompt stagedFile currentFile onCommit
      metadata =>
      apply (commitStagedVersion_preserves decoded sound prompt stagedFile
        currentFile onCommit plain).map
      intro _ final ended _ selection member
      rw [List.mem_singleton.mp member]
      exact ended.2.agrees ended.1
  | commitStagedVersions commits onCommit =>
    apply (commitStagedVersions_preserves decoded sound plain.1 plain.2 onCommit).map
    intro _ final ended _ selection member
    obtain ⟨commit, isCommit, isSelection⟩ := List.mem_map.mp member
    subst isSelection
    rcases ended with isEmpty | committed
    · rw [isEmpty] at isCommit
      cases isCommit
    · exact (committed.2 commit isCommit).agrees committed.1
  | commitStagedPaidVersion identity prompt stagedFile currentFile
      selectCurrent expectedCurrent onSelect metadata =>
      apply (commitStagedPaidVersion_preserves decoded sound prompt plain.2
        selectCurrent expectedCurrent onSelect plain.1).map
      intro commit final ended _ selection member
      split at member
      · next isSelected =>
          rw [List.mem_singleton.mp member]
          exact (ended isSelected).2.agrees (ended isSelected).1
      · cases member
  | rejectCurrentVersion identity rejectedVersion goBackTo currentFile
      onReject =>
      apply (rejectCurrentVersion_preserves decoded sound rejectedVersion
        goBackTo currentFile onReject).map
      intro rejected final ended _ selection member
      split at member
      · next isRejected =>
          rw [List.mem_singleton.mp member]
          exact (ended isRejected).2.agrees (ended isRejected).1
      · cases member
  | restoreVersion identity version currentFile onRestore =>
    apply (restoreVersion_preserves decoded sound version currentFile onRestore).map
    intro _ final ended _ selection member
    rw [List.mem_singleton.mp member]
    exact ended.2.agrees ended.1

theorem Call.run_advanced (decoded : disk.history? codec = some base)
    (sound : SoundHistory base) {call : Call} (plain : call.Plain) :
    Advanced codec disk base (call.run codec environment disk).2 := by
  have preserves : Preserves codec disk base disk.start (call.stage codec environment) _ :=
    Call.stage_preserves decoded sound plain
  unfold Call.run Disk.run
  cases ended : call.stage codec environment disk.start with
  | mk result final =>
    cases result with
    | ok selected => exact (preserves.ok ended).1
    | error failure => exact preserves.error ended

end Steps

/-! ## Runs -/

/-- A call with the failures it meets, or a change of a media file by the
rest of the project. -/
inductive Event (Bytes : Type) where
  | call (call : Call) (environment : Environment Bytes)
  | media (file : String) (content : Option Bytes)

def Event.Plain : Event Bytes → Prop
  | .call made _ => made.Plain
  | .media .. => True

def Event.next (codec : VersionsCodec Bytes) (disk : Disk Bytes) : Event Bytes → Disk Bytes
  | .call made environment => (made.run codec environment disk).2
  | .media file content =>
    { disk with files := Function.update disk.files (.media file) content }

/-- The version manager in a project that starts without a history. -/
def versionSystem (codec : VersionsCodec Bytes) : TransitionSystem (Disk Bytes) (Event Bytes) :=
  { initial := fun disk => disk.files versionsFile = none
    step := fun disk event next => next = event.next codec disk }

/-- Runs whose calls are all plain. -/
def plainSystem (codec : VersionsCodec Bytes) : TransitionSystem (Disk Bytes) (Event Bytes) :=
  (versionSystem codec).restrict (fun _ event => event.Plain)

variable {base : VersionsData}

/-- A step keeps the history sound, its records in place and their snapshots
as they were. -/
theorem Event.next_advanced {disk : Disk Bytes}
    (decoded : disk.history? codec = some base) (sound : SoundHistory base)
    {event : Event Bytes} (plain : event.Plain) :
    Advanced codec disk base (event.next codec disk) := by
  cases event with
  | call made environment => exact Call.run_advanced decoded sound plain
  | media file content =>
    have outside : ∀ path, path ≠ .media file →
        ((Event.media file content).next codec disk).files path = disk.files path := by
      intro path different
      exact Function.update_of_ne different content disk.files
    constructor
    · intro path registered
      apply outside
      intro same
      subst same
      exact (Free.media sound file).notRegistered registered
    · refine ⟨base, ?_, Grown.refl sound⟩
      unfold Disk.history? at decoded ⊢
      rw [outside versionsFile nofun]
      exact decoded

theorem Advanced.trans {first second third : Disk Bytes} {middle : VersionsData}
    (decoded : second.history? codec = some middle) (toSecond : Advanced codec first base second)
    (toThird : Advanced codec second middle third) :
    Advanced codec first base third := by
  obtain ⟨data, isData, grown⟩ := toSecond.history
  cases isData.symm.trans decoded
  have stillRegistered : ∀ path, Registered base path → Registered middle path := by
    intro path registered
    obtain ⟨identity, resource, record, found, member, named⟩ := registered
    have longer := (grown.extended identity).subset
    unfold recordsOf at longer
    rw [found] at longer
    have inMiddle := longer member
    cases stored : middle.get? identity with
    | none =>
      rw [stored] at inMiddle
      cases inMiddle
    | some kept =>
      rw [stored] at inMiddle
      exact ⟨identity, kept, record, stored, inMiddle, named⟩
  constructor
  · intro path registered
    rw [toThird.snapshots path (stillRegistered path registered)]
    exact toSecond.snapshots path registered
  · obtain ⟨last, isLast, further⟩ := toThird.history
    refine ⟨last, isLast, further.sound, ?_⟩
    intro identity
    exact (grown.extended identity).trans (further.extended identity)

theorem run_advanced {disk later : Disk Bytes} {events : List (Event Bytes)}
    (run : (plainSystem codec).Run disk events later)
    (decoded : disk.history? codec = some base) (sound : SoundHistory base) :
    Advanced codec disk base later := by
  induction run generalizing base with
  | nil => exact Advanced.unchanged decoded sound rfl
  | cons step _ induction =>
    obtain ⟨plain, isNext⟩ := step
    subst isNext
    have stepped := Event.next_advanced decoded sound plain
    obtain ⟨data, isData, grown⟩ := stepped.history
    exact stepped.trans isData (induction isData grown.sound)

/-- The version history of a disk, as the rest of the project relies on it. -/
structure HistoryHolds (codec : VersionsCodec Bytes) (disk : Disk Bytes)
    (data : VersionsData) : Prop where
  /-- The history can be read. -/
  decoded : disk.history? codec = some data
  /-- Every record has a positive number, and the numbers grow in history order. -/
  numbered : ∀ identity resource, data.get? identity = some resource →
    (∀ record ∈ resource.versions, ∃ number : Nat, 0 < number ∧
        versionNumber record = some (number : Int)) ∧
      (resource.versions.filterMap versionNumber).Pairwise (fun earlier later => earlier < later)
  /-- The selected version is none or a recorded one. -/
  selected : ∀ identity resource, data.get? identity = some resource →
    ∃ number : Nat, resource.currentVersion = .int number ∧
      (number = 0 ∨ ∃ record ∈ resource.versions, versionNumber record = some (number : Int))
  /-- In the rest of the run a record keeps its place and its snapshot. -/
  permanent : ∀ events later, (plainSystem codec).Run disk events later →
    ∃ data', later.history? codec = some data' ∧
      (∀ identity, recordsOf data identity <+: recordsOf data' identity) ∧
      ∀ path, Registered data path → later.files path = disk.files path
  /-- What a call selects is what the canonical file holds. -/
  canonical : ∀ environment (call : Call) selections, call.Plain → call.isAdd = false →
    (call.run codec environment disk).1 = .ok selections →
    ∀ selection ∈ selections, Agrees codec (call.run codec environment disk).2 selection
  /-- `add_version` copies its source and leaves every media file alone. -/
  added : ∀ environment identity prompt sourceFile metadata version, ExtraOnly metadata →
    (disk.run (addVersion codec environment identity prompt sourceFile metadata)).1 = .ok version →
    ∃ final, Saved codec final ∧ final.toDisk =
        (disk.run (addVersion codec environment identity prompt sourceFile metadata)).2 ∧
      Added identity sourceFile disk version final

theorem version_history_holds (codec : VersionsCodec Bytes)
    (disk : Disk Bytes) (reachable : (plainSystem codec).Reachable disk) :
    ∃ data, HistoryHolds codec disk data := by
  obtain ⟨start, events, isStart, run⟩ := reachable
  have atStart : start.history? codec = some Dict.empty := by
    unfold Disk.history?
    rw [isStart]
  obtain ⟨data, decoded, grown⟩ := (run_advanced run atStart SoundHistory.empty).history
  refine ⟨data, decoded, ?_, ?_, ?_, ?_, ?_⟩
  · intro identity resource found
    have sound := grown.sound identity resource found
    refine ⟨?_, sound.increasing⟩
    intro record member
    obtain ⟨number, positive, carries⟩ := sound.recorded record member
    exact ⟨number, positive, carries.versionNumber_eq⟩
  · intro identity resource found
    obtain ⟨number, isCurrent, known⟩ := (grown.sound identity resource found).selected
    refine ⟨number, isCurrent, known.imp_right ?_⟩
    intro recorded
    obtain ⟨record, member, carries⟩ := recorded
    exact ⟨record, member, carries.versionNumber_eq⟩
  · intro later final further
    have advanced := run_advanced further decoded grown.sound
    obtain ⟨data', isData', grown'⟩ := advanced.history
    exact ⟨data', isData', grown'.extended, advanced.snapshots⟩
  · intro environment call selections plain notAdd returned selection member
    have preserves : Preserves codec disk data disk.start (call.stage codec environment) _ :=
      Call.stage_preserves decoded grown.sound plain
    cases ended : call.stage codec environment disk.start with
    | mk result final =>
      unfold Call.run Disk.run at returned ⊢
      rw [ended] at returned ⊢
      dsimp only at returned
      subst returned
      exact (preserves.ok ended).2 notAdd selection member
  · intro environment identity prompt sourceFile metadata version extra returned
    have preserves : Preserves codec disk data disk.start
        (addVersion codec environment identity prompt sourceFile metadata) _ :=
      addVersion_preserves decoded grown.sound prompt sourceFile extra
    cases ended : addVersion codec environment identity prompt sourceFile metadata disk.start with
    | mk result final =>
      unfold Disk.run at returned ⊢
      rw [ended] at returned ⊢
      dsimp only at returned
      subst returned
      obtain ⟨_, saved, isAdded⟩ := preserves.ok ended
      exact ⟨final, saved, rfl, isAdded⟩

/-! ## A small project -/

/-- Media by a text, the document as itself. -/
def sampleCodec : VersionsCodec (String ⊕ VersionsData) :=
  { dump := Sum.inr
    load := Sum.getRight?
    load_dump := fun _ => rfl }

/-- No step fails. -/
def calm : Environment (String ⊕ VersionsData) :=
  { outcome := fun _ _ => .completes
    bestEffort := fun _ => true
    timestamp := fun _ => ⟨"20250101T000000", by decide⟩
    isoTimestamp := fun _ => "2025-01-01T00:00:00Z" }

def hero : Identity := ⟨"characters", "hero"⟩

/-- One draft outside the canonical place, and no history. -/
def draftDisk : Disk (String ⊕ VersionsData) :=
  { files := fun path =>
      if path = .media "drafts/hero.png" then some (.inl "draft") else none
    temporaries := 0 }

def heroAdd : Call :=
  .addVersion hero "portrait" (some "drafts/hero.png") []

def heroCommit : Call :=
  .commitStagedVersion hero "portrait" "drafts/hero.png" "characters/hero.png" false []

theorem committed_hero_history_holds : (heroCommit.run sampleCodec calm draftDisk).1 =
        .ok [(hero, "characters/hero.png")] ∧
      ∃ data, HistoryHolds sampleCodec (heroCommit.run sampleCodec calm draftDisk).2 data := by
  have plain : heroCommit.Plain := by
    intro entry member
    cases member
  refine ⟨rfl, version_history_holds sampleCodec _ ?_⟩
  exact ⟨draftDisk, [.call heroCommit calm], rfl, .cons ⟨plain, rfl⟩ (.nil _)⟩

/-- The draft, and a portrait at the canonical place. -/
def portraitDisk : Disk (String ⊕ VersionsData) :=
  (Event.media "characters/hero.png" (some (.inl "old"))).next sampleCodec draftDisk

def renumbered : Call :=
  .commitStagedVersion hero "portrait" "drafts/hero.png" "characters/hero.png" false
    [("version", .int 7)]

def relocated : Call :=
  .commitStagedVersion hero "portrait" "drafts/hero.png" "characters/hero.png" false
    [("file", .str "lost.png")]

/-- The second member takes the canonical file of the first one away. -/
def chained : Call :=
  .commitStagedVersions [⟨hero, "portrait", "drafts/hero.png", "characters/hero.png", []⟩,
    ⟨⟨"characters", "twin"⟩, "portrait", "characters/hero.png", "characters/twin.png", []⟩] false

def paidInPlace : Call :=
  .commitStagedPaidVersion hero "portrait" "drafts/hero.png" "drafts/hero.png" (.always true) none
    false []

/-- `add_version` selects without touching the canonical file, and each kind
of call that is not plain can return without the bytes of the selected version
at the canonical place. -/
theorem selection_can_disagree : (plainSystem sampleCodec).Reachable draftDisk ∧
    (plainSystem sampleCodec).Reachable portraitDisk ∧
    ∀ made ∈ [(draftDisk, heroAdd), (draftDisk, renumbered), (draftDisk, relocated),
        (portraitDisk, chained), (draftDisk, paidInPlace)],
      ∃ selections, (made.2.run sampleCodec calm made.1).1 = .ok selections ∧
        ∃ selection ∈ selections,
          ¬ Agrees sampleCodec (made.2.run sampleCodec calm made.1).2 selection := by
  refine ⟨⟨draftDisk, [], rfl, .nil _⟩,
    ⟨draftDisk, [.media _ _], rfl, .cons ⟨trivial, rfl⟩ (.nil _)⟩, ?_⟩
  simp only [List.forall_mem_cons]
  refine ⟨⟨_, rfl, _, .head _, fun agrees => ?_⟩, ⟨_, rfl, _, .head _, fun agrees => ?_⟩,
    ⟨_, rfl, _, .head _, fun agrees => ?_⟩, ⟨_, rfl, _, .head _, fun agrees => ?_⟩,
    ⟨_, rfl, _, .head _, fun agrees => ?_⟩, nofun⟩
  all_goals
    obtain ⟨record, member, isNumber, path, named, bytes, held, canonical⟩ :=
      agrees.of_pointer rfl rfl nofun
  · cases canonical
  · cases List.mem_singleton.mp member
    cases isNumber
  · cases List.mem_singleton.mp member
    cases named
    cases held
  · cases canonical
  · cases canonical

end MatrixSpooll.Version
