import MatrixSpooll.Version.BatchTurn

/-!
# The rollback of a batch

`Recoverable target watched` says that the notes of a running batch are enough
to give each watched canonical file its `target` content: it has been noted as
it was found, with its bytes in a backup of its own, or it has not been touched
yet.  Every turn of the loop keeps this as long as it does not take a watched
file that no earlier turn has noted, and the rollback then delivers it.
-/

namespace MatrixSpooll.Version

open Library Attempt List Working Option CurrentState

variable {Bytes : Type} {environment : Environment Bytes}
  {target : String → Option Bytes} {watched : List String}
  {start final : Working Bytes}

/-- Every step of a rollback or a clean-up works. -/
def Environment.Restores (environment : Environment Bytes) : Prop :=
  ∀ count, environment.bestEffort count = true

/-- The note of a canonical file gives it its target content back. -/
def FoundAs (target : String → Option Bytes) (working : Working Bytes)
    (state : CurrentState) : Prop :=
  (state.existed = false ∧ state.backup = none ∧ target state.currentFile = none) ∨
  ∃ index, state.backup = some (.temporary index) ∧ (target state.currentFile).isSome = true ∧
    working.files (.temporary index) = target state.currentFile

theorem FoundAs.of_found {state : CurrentState} (found : Found start final state)
    (asTarget : start.files (.media state.currentFile) =
      target state.currentFile) : FoundAs target final state := by
  rcases found with missing | present
  · exact .inl ⟨missing.1, missing.2.1, asTarget.symm.trans missing.2.2⟩
  · obtain ⟨index, _, named, _, _, isSome, copied⟩ := present
    rw [asTarget] at isSome copied
    exact .inr ⟨index, named, isSome, copied⟩

structure Recoverable (target : String → Option Bytes)
    (watched : List String) (working : Working Bytes) : Prop where
  found : ∀ state ∈ working.currentStates, state.currentFile ∈ watched →
    FoundAs target working state
  backups : ∀ state ∈ working.currentStates, ∀ path, state.backup = some path →
      ∃ index, path = .temporary index ∧ index < working.temporaries
  distinctBackups : (working.currentStates.filterMap backup).Nodup
  distinctFiles : (working.currentStates.map currentFile).Nodup
  untouched : ∀ file ∈ watched, file ∉ working.currentStates.map currentFile →
      working.files (.media file) = target file
  created : ∀ path ∈ working.createdSnapshots, IsSnapshot path

namespace Recoverable

section

variable (recoverable : Recoverable target watched start)
include recoverable

/-- A later state with at most one more note, in which the backups of the
earlier ones still stand. -/
theorem extend (added : Option CurrentState) (older : ∀ index, index < start.temporaries →
      final.files (.temporary index) = start.files (.temporary index))
    (temporaries : start.temporaries ≤ final.temporaries)
    (created : ∀ path ∈ final.createdSnapshots, path ∈ start.createdSnapshots ∨ IsSnapshot path)
    (found : ∀ state ∈ added, Found start final state ∧
      state.currentFile ∉ start.currentStates.map currentFile)
    (noted : final.currentStates = start.currentStates ++ added.toList)
    (untouched : ∀ file ∈ watched, file ∉ start.currentStates.map currentFile →
      (∀ state ∈ added, file ≠ state.currentFile) →
        final.files (.media file) = start.files (.media file)) :
    Recoverable target watched final := by
  have isBackup : ∀ state ∈ added.toList, ∀ path, state.backup = some path →
      ∃ index, path = .temporary index ∧ start.temporaries ≤ index ∧ index < final.temporaries := by
    intro state isAdded path named
    rcases (found state (mem_toList.mp isAdded)).1 with
      missing | present
    · rw [missing.2.1] at named
      cases named
    · obtain ⟨index, _, isNamed, newer, isOlder, _⟩ := present
      rw [isNamed] at named
      cases named
      exact ⟨index, rfl, newer, isOlder⟩
  constructor
  · intro state member isWatched
    rw [noted] at member
    rcases mem_append.mp member with wasThere | isNew
    · rcases recoverable.found state wasThere isWatched with missing | present
      · exact .inl missing
      · obtain ⟨index, named, isSome, copied⟩ := present
        obtain ⟨known, same, isOlder⟩ := recoverable.backups state wasThere _ named
        cases same
        refine .inr ⟨index, named, isSome, ?_⟩
        rw [older index isOlder]
        exact copied
    · obtain ⟨isFound, fresh⟩ := found state (mem_toList.mp isNew)
      exact FoundAs.of_found isFound (recoverable.untouched _ isWatched fresh)
  · intro state member path named
    rw [noted] at member
    rcases mem_append.mp member with wasThere | isNew
    · obtain ⟨index, isPath, isOlder⟩ :=
        recoverable.backups state wasThere path named
      exact ⟨index, isPath, Nat.lt_of_lt_of_le isOlder temporaries⟩
    · obtain ⟨index, isPath, _, isOlder⟩ := isBackup state isNew path named
      exact ⟨index, isPath, isOlder⟩
  · rw [noted, filterMap_append, nodup_append]
    refine ⟨recoverable.distinctBackups, ?_, ?_⟩
    · cases added with
      | none => exact nodup_nil
      | some state => cases named : state.backup <;> simp [named]
    · intro path inOlder other inNew same
      subst same
      obtain ⟨earlier, wasThere, named⟩ := mem_filterMap.mp inOlder
      obtain ⟨newer, isNew, newNamed⟩ := mem_filterMap.mp inNew
      obtain ⟨index, isPath, isOlder⟩ := recoverable.backups earlier wasThere path named
      obtain ⟨index', isPath', isNewer, _⟩ := isBackup newer isNew path newNamed
      rw [isPath] at isPath'
      cases isPath'
      omega
  · rw [noted, map_append, nodup_append]
    refine ⟨recoverable.distinctFiles, by cases added <;> simp, ?_⟩
    intro file inOlder other inNew same
    obtain ⟨state, isNew, isFile⟩ := mem_map.mp inNew
    rw [same, ← isFile] at inOlder
    exact (found state (mem_toList.mp isNew)).2 inOlder
  · intro file isWatched isNew
    rw [noted, map_append, mem_append, not_or] at isNew
    rw [untouched file isWatched isNew.1]
    · exact recoverable.untouched file isWatched isNew.1
    · intro state isAdded same
      rw [same] at isNew
      exact isNew.2 (mem_map_of_mem (mem_toList.mpr isAdded))
  · intro path member
    rcases created path member with wasThere | isSnapshot
    · exact recoverable.created path wasThere
    · exact isSnapshot

theorem interrupted {currentFile : String}
    (fresh : currentFile ∉ start.currentStates.map CurrentState.currentFile)
    (interrupted : Interrupted currentFile start final) :
    Recoverable target watched final := by
  have prepares := interrupted.prepares
  rcases interrupted.states with same | noted
  · refine recoverable.extend none prepares.older prepares.temporaries
      prepares.created nofun ?_ (fun file _ _ _ => prepares.media file)
    rw [same, toList_none, append_nil]
  · obtain ⟨state, isFile, found, noted⟩ := noted
    rw [← isFile] at fresh
    refine recoverable.extend (some state) prepares.older
      prepares.temporaries prepares.created ?_ noted
      (fun file _ _ _ => prepares.media file)
    intro other isState
    cases isState
    exact ⟨found, fresh⟩

theorem turned {commit : StagedVersionCommit} (fresh : commit.currentFile ∉
      start.currentStates.map currentFile)
    (turned : Turned commit start final) (spares : ∀ file ∈ watched,
      file ∉ start.currentStates.map currentFile →
      file ≠ commit.currentFile → file ≠ commit.stagedFile) :
    Recoverable target watched final := by
  obtain ⟨state, isFile, found, noted⟩ := turned.state
  obtain ⟨bytes, version, _, _, media⟩ := turned.moved
  rw [← isFile] at fresh
  refine recoverable.extend (some state) turned.older turned.temporaries turned.created ?_ noted ?_
  · intro other isState
    cases isState
    exact ⟨found, fresh⟩
  · intro file isWatched isNew notState
    have notCurrent : file ≠ commit.currentFile := isFile ▸ notState state rfl
    rw [media file, if_neg notCurrent, if_neg (spares file isWatched isNew notCurrent)]

theorem unwatch : Recoverable target [] start :=
  { recoverable with
    found := nofun
    untouched := nofun }

end

end Recoverable

/-! ## Restoring -/

theorem tryStep_restores (restores : environment.Restores) (progress : Working Bytes × Bool)
    {step : Working Bytes → Option (Working Bytes)} {next : Working Bytes}
    (stepped : step progress.1.advance = some next) :
    (tryStep environment progress step).1 = next := by
  unfold tryStep
  rw [restores, stepped]

theorem tryRestore_frame (progress : Working Bytes × Bool) {state : CurrentState} {path : Path}
    (notCurrent : path ≠ .media state.currentFile) (notBackup : state.backup ≠ some path) :
    (tryStep environment progress (restoreCurrent state)).1.files path = progress.1.files path := by
  unfold tryStep
  split
  · next restored =>
    unfold restoreCurrent at restored
    split at restored
    · split at restored <;> cases restored
      · rfl
      · rw [files_write, if_neg notCurrent]
        rfl
    · next backup isBackup =>
      obtain ⟨bytes, _, moved⟩ := map_eq_some_iff.mp restored
      have otherPath : path ≠ backup := fun same => notBackup (same ▸ isBackup)
      rw [← moved, files_move, if_neg notCurrent, if_neg otherPath]
      rfl
  · rfl

theorem tryRestore_target (restores : environment.Restores)
    (progress : Working Bytes × Bool) {state : CurrentState}
    (found : FoundAs target progress.1 state) :
    (tryStep environment progress (restoreCurrent state)).1.files
      (.media state.currentFile) = target state.currentFile := by
  rcases found with missing | present
  · obtain ⟨isMissing, noBackup, isNone⟩ := missing
    have restored : restoreCurrent state progress.1.advance =
        some (progress.1.advance.write (.media state.currentFile) none) := by
      unfold restoreCurrent
      rw [noBackup, isMissing]
      rfl
    rw [tryStep_restores restores progress restored, files_write, if_pos rfl, isNone]
  · obtain ⟨index, named, isSome, copied⟩ := present
    obtain ⟨bytes, isBytes⟩ := isSome_iff_exists.mp isSome
    rw [isBytes] at copied
    have restored : restoreCurrent state progress.1.advance =
        some (progress.1.advance.move (.temporary index) (.media state.currentFile) bytes) := by
      have held : progress.1.advance.files (.temporary index) = some bytes := copied
      unfold restoreCurrent
      rw [named]
      simp only [held, map_some]
    rw [tryStep_restores restores progress restored, files_move, if_pos rfl, isBytes]

theorem restoreStates (restores : environment.Restores) {states : List CurrentState}
    (temporary : ∀ state ∈ states, ∀ path, state.backup = some path →
      ∃ index, path = .temporary index)
    (distinctBackups : (states.filterMap backup).Nodup)
    (distinctFiles : (states.map currentFile).Nodup) {progress : Working Bytes × Bool}
    (found : ∀ state ∈ states, state.currentFile ∈ watched → FoundAs target progress.1 state) :
    (∀ state ∈ states, state.currentFile ∈ watched →
      ((states.map restoreCurrent).foldl (tryStep environment)
        progress).1.files (.media state.currentFile) = target state.currentFile) ∧
    ∀ path, (∀ state ∈ states, path ≠ .media state.currentFile) →
      (∀ index, path ≠ .temporary index) →
      ((states.map restoreCurrent).foldl (tryStep environment)
        progress).1.files path = progress.1.files path := by
  induction states generalizing progress with
  | nil =>
    refine ⟨?_, fun _ _ _ => rfl⟩
    intro state member
    cases member
  | cons state rest induction =>
    have isTemporary := temporary state mem_cons_self
    obtain ⟨newFile, restFiles⟩ := nodup_cons.mp distinctFiles
    have restTemporary : ∀ other ∈ rest, ∀ path,
        other.backup = some path → ∃ index, path = .temporary index :=
      fun other member => temporary other (mem_cons_of_mem state member)
    have restBackups : (rest.filterMap backup).Nodup :=
      distinctBackups.sublist ((sublist_cons_self state rest).filterMap _)
    have otherBackup : ∀ other ∈ rest, ∀ path, other.backup = some path →
        state.backup ≠ some path := by
      intro other member path named isSame
      rw [filterMap_cons_some isSame, nodup_cons] at distinctBackups
      exact distinctBackups.1 (mem_filterMap.mpr ⟨other, member, named⟩)
    have restFound : ∀ other ∈ rest, other.currentFile ∈ watched →
        FoundAs target (tryStep environment progress (restoreCurrent state)).1 other := by
      intro other member isWatched
      rcases found other (mem_cons_of_mem state member) isWatched with
        missing | present
      · exact .inl missing
      · obtain ⟨index, named, isSome, copied⟩ := present
        refine .inr ⟨index, named, isSome, ?_⟩
        rw [tryRestore_frame progress (fun same => by cases same)
          (otherBackup other member _ named)]
        exact copied
    obtain ⟨restored, frame⟩ := induction restTemporary restBackups restFiles restFound
    rw [map_cons, foldl_cons]
    constructor
    · intro other member isWatched
      rcases mem_cons.mp member with isState | later
      · subst isState
        rw [frame]
        · exact tryRestore_target restores progress (found other mem_cons_self isWatched)
        · intro later member same
          apply newFile
          rw [Path.media.inj same]
          exact mem_map_of_mem member
        · intro index same
          cases same
      · exact restored other later isWatched
    · intro path notCurrent notTemporary
      rw [frame path (fun other member => notCurrent other
        (mem_cons_of_mem state member)) notTemporary]
      apply tryRestore_frame progress (notCurrent state mem_cons_self)
      intro isBackup
      obtain ⟨index, isPath⟩ := isTemporary path isBackup
      exact notTemporary index isPath

/-- The watched files and `versions.json` are back. -/
structure RolledBack (target : String → Option Bytes)
    (watched : List String) (snapshot : Option Bytes) (working : Working Bytes) : Prop where
  files : ∀ file ∈ watched, working.files (.media file) = target file
  history : working.files versionsFile = snapshot

theorem RolledBack.unlinkPaths {snapshot : Option Bytes}
    (rolledBack : RolledBack target watched snapshot start) {paths : List Path}
    (notMedia : ∀ path ∈ paths, ∀ file, path ≠ .media file)
    (notHistory : ∀ path ∈ paths, path ≠ versionsFile) (worked : Bool) :
    RolledBack target watched snapshot ((paths.map Version.unlink).foldl (tryStep environment)
        (start, worked)).1 := by
  apply foldl_tryStep_keeps _ _ rolledBack
  · intro working count holds
    exact ⟨holds.files, holds.history⟩
  · intro step member working next holds stepped
    obtain ⟨path, isPath, isStep⟩ := mem_map.mp member
    subst isStep
    cases stepped
    constructor
    · intro file isWatched
      rw [files_write, if_neg (notMedia path isPath file).symm]
      exact holds.files file isWatched
    · rw [files_write, if_neg (notHistory path isPath).symm]
      exact holds.history

/-- The rollback gives every watched file its target and `versions.json` its
old bytes. -/
theorem Recoverable.rollBack (recoverable : Recoverable target watched start)
    (restores : environment.Restores) (snapshot : Option Bytes)
    (message : String) (failure : VersionError) :
    RolledBack target watched snapshot (rollBack environment snapshot message failure start).2 := by
  have temporary : ∀ state ∈ start.currentStates.reverse, ∀ path,
      state.backup = some path → ∃ index, path = .temporary index := by
    intro state member path isBackup
    obtain ⟨index, isPath, _⟩ := recoverable.backups state (mem_reverse.mp member) path isBackup
    exact ⟨index, isPath⟩
  have distinctBackups : (start.currentStates.reverse.filterMap backup).Nodup := by
    rw [filterMap_reverse]
    exact nodup_reverse.mpr recoverable.distinctBackups
  have distinctFiles : (start.currentStates.reverse.map currentFile).Nodup := by
    rw [map_reverse]
    exact nodup_reverse.mpr recoverable.distinctFiles
  have found : ∀ state ∈ start.currentStates.reverse,
      state.currentFile ∈ watched → FoundAs target (start, true).1 state :=
    fun state member => recoverable.found state (mem_reverse.mp member)
  obtain ⟨ofStates, frame⟩ := restoreStates restores temporary distinctBackups distinctFiles found
  unfold Version.rollBack tryAll
  rw [foldl_append, foldl_cons]
  generalize (start.currentStates.reverse.map restoreCurrent).foldl
    (tryStep environment) (start, true) = undone at ofStates frame
  have ofFiles : ∀ file ∈ watched, undone.1.files (.media file) = target file := by
    intro file isWatched
    by_cases noted : file ∈ start.currentStates.map currentFile
    · obtain ⟨state, member, isFile⟩ := mem_map.mp noted
      subst isFile
      exact ofStates state (mem_reverse.mpr member) isWatched
    · rw [frame]
      · exact recoverable.untouched file isWatched noted
      · intro state member same
        apply noted
        rw [Path.media.inj same]
        exact mem_map_of_mem (mem_reverse.mp member)
      · intro index same
        cases same
  have ofHistory : RolledBack target watched snapshot
      (tryStep environment undone (restoreVersionsFile snapshot)).1 := by
    have restored : restoreVersionsFile snapshot undone.1.advance =
      some (undone.1.advance.write versionsFile snapshot) := rfl
    rw [tryStep_restores restores undone restored]
    constructor
    · intro file isWatched
      rw [files_write, if_neg nofun]
      exact ofFiles file isWatched
    · exact (files_write _ _ _ _).trans (if_pos rfl)
  apply ofHistory.unlinkPaths
  · intro path member file same
    obtain ⟨_, _, _, isPath⟩ := recoverable.created path member
    rw [isPath] at same
    cases same
  · intro path member
    obtain ⟨identity, version, timestamp, isPath⟩ := recoverable.created path member
    rw [isPath]
    exact versionRelPath_ne_versionsFile identity version timestamp

end MatrixSpooll.Version
