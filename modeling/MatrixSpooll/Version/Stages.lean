import MatrixSpooll.Version.Numbering

/-!
# What the steps of a call do

One specification for each step of a call, from a given state `start`.  The
number of steps made so far only picks the next outcome, so a final state is
written as a change of `start` followed by `atStep`.
-/

namespace MatrixSpooll.Version

open MatrixSpooll.Library Attempt Ensures

variable {Bytes : Type} {environment : Environment Bytes} {start : Working Bytes}

namespace Working

def atStep (working : Working Bytes) (steps : Nat) : Working Bytes :=
  { working with steps := steps }

/-- The names below `count` have been given out by `mkstemp`. -/
def reserve (working : Working Bytes) (count : Nat) : Working Bytes :=
  { working with temporaries := count }

variable (working : Working Bytes)

@[simp] theorem files_atStep (steps : Nat) : (working.atStep steps).files = working.files := rfl

theorem files_write (path other : Path) (content : Option Bytes) :
    (working.write path content).files other =
      if other = path then content else working.files other :=
  Function.update_apply working.files path content other

theorem files_move (source target other : Path) (bytes : Bytes) :
    (working.move source target bytes).files other =
      if other = target then some bytes
      else if other = source then none else working.files other := by
  unfold move
  rw [files_write, files_write]

theorem write_self (path : Path) : working.write path (working.files path) = working := by
  unfold write
  rw [Function.update_eq_self]

end Working

theorem Working.get?_putResource (working : Working Bytes)
    (identity : Identity) (resource : ResourceData) :
    (working.putResource identity resource).data.get? identity = some resource := by
  show (working.data.put identity resource).get? identity = _
  rw [Dict.get?_put, if_pos rfl]

/-- At most some steps have been counted. -/
def Passed (start final : Working Bytes) : Prop :=
  ∃ steps, final = start.atStep steps

theorem passStep_ensures (operation : Operation) (failure : VersionError) :
    Ensures start (passStep environment operation failure)
      (fun _ => Passed start) (Passed start) := by
  apply of_outcome
  unfold passStep
  cases environment.outcome start.steps operation with
  | completes | fails => exact ⟨_, rfl⟩

theorem passStep_then {Value : Type} {operation : Operation}
    {failure : VersionError} {rest : Unit → Stage Bytes Value}
    {returned : Value → Working Bytes → Prop} {raised : Working Bytes → Prop}
    (stops : ∀ steps, raised (start.atStep steps))
    (goesOn : ∀ steps, Ensures (start.atStep steps) (rest ()) returned raised) :
    Ensures start (passStep environment operation failure >>= rest) returned
      raised := by
  apply Ensures.bind (passStep_ensures operation failure)
  · intro final passed
    obtain ⟨steps, isFinal⟩ := passed
    rw [isFinal]
    exact stops steps
  · intro _ final passed
    obtain ⟨steps, isFinal⟩ := passed
    rw [isFinal]
    exact goesOn steps

theorem copyFile_ensures (source target : Path) : Ensures start (copyFile environment source target)
      (fun _ final => ∃ bytes steps, start.files source = some bytes ∧
        final = (start.write target (some bytes)).atStep steps)
      (fun final => ∃ content steps, final = (start.write target content).atStep steps) := by
  have untouched : ∃ content steps, start.advance = (start.write target content).atStep steps :=
    ⟨start.files target, start.steps + 1, by
      rw [Working.write_self]
      rfl⟩
  apply of_outcome
  unfold copyFile
  cases present : start.files source with
  | none => exact untouched
  | some bytes =>
    simp only
    split_ifs with same
    · exact untouched
    · cases environment.outcome start.steps .copy with
      | completes => exact ⟨bytes, _, rfl, rfl⟩
      | fails written =>
        cases written with
        | none => exact untouched
        | some written => exact ⟨_, _, rfl⟩

theorem replaceFile_ensures (source target : Path) :
    Ensures start (replaceFile environment source target)
      (fun _ final => ∃ bytes steps, start.files source = some bytes ∧
        final = (start.move source target bytes).atStep steps)
      (Passed start) := by
  apply of_outcome
  unfold replaceFile
  cases present : start.files source with
  | none => exact ⟨_, rfl⟩
  | some bytes =>
    cases environment.outcome start.steps .replace with
    | completes => exact ⟨bytes, _, rfl, rfl⟩
    | fails => exact ⟨_, rfl⟩

theorem runCallback_ensures (given : Bool) : Ensures start (runCallback environment given)
      (fun _ => Passed start) (Passed start) := by
  unfold runCallback
  split
  · exact passStep_ensures .callback .callbackFailed
  · exact Ensures.pure ⟨start.steps, rfl⟩

variable {kept : Working Bytes → Prop} {working : Working Bytes}

section

variable (anyStep : ∀ working count, kept working → kept (working.atStep count))
include anyStep

/-- A property that the best-effort steps keep holds after all of them. -/
theorem foldl_tryStep_keeps {steps : List (Working Bytes → Option (Working Bytes))}
    (each : ∀ step ∈ steps, ∀ working next, kept working →
      step working = some next → kept next) {progress : Working Bytes × Bool}
    (holds : kept progress.1) :
    kept (steps.foldl (tryStep environment) progress).1 := by
  induction steps generalizing progress with
  | nil => exact holds
  | cons step rest induction =>
    rw [List.foldl_cons]
    apply induction
    · intro other member
      exact each other (List.mem_cons_of_mem step member)
    · have advanced : kept progress.1.advance := anyStep progress.1 _ holds
      unfold tryStep
      split
      · next stepped =>
          exact each step List.mem_cons_self _ _ advanced stepped
      · exact advanced

theorem tryAll_keeps {steps : List (Working Bytes → Option (Working Bytes))}
    (each : ∀ step ∈ steps, ∀ working next, kept working →
      step working = some next → kept next) (holds : kept working) :
    kept (tryAll environment steps working).1 :=
  foldl_tryStep_keeps anyStep each holds

theorem unlinkPaths_keeps {paths : List Path} (each : ∀ path ∈ paths, ∀ working, kept working →
      kept (working.write path none)) (holds : kept working) :
    kept (unlinkPaths environment paths working) := by
  unfold unlinkPaths
  apply tryAll_keeps anyStep
  · intro step member working next before stepped
    obtain ⟨path, isPath, isStep⟩ := List.mem_map.mp member
    subst isStep
    cases stepped
    exact each path isPath working before
  · exact holds

end

theorem makeTemporary_ensures : Ensures start (makeTemporary environment)
      (fun path final => path = .temporary start.temporaries ∧
        Passed (start.reserve (start.temporaries + 1)) final)
      (Passed start) := by
  apply of_outcome
  unfold makeTemporary
  cases environment.outcome start.steps .makeTemporary with
  | completes => exact ⟨rfl, _, rfl⟩
  | fails => exact ⟨_, rfl⟩

/-- Only names that `mkstemp` has given out since may have other content. -/
structure Beside (start final : Working Bytes) : Prop where
  files : ∀ path, (∀ index, path = .temporary index →
    index < start.temporaries) → final.files path = start.files path
  temporaries : start.temporaries ≤ final.temporaries
  data : final.data = start.data
  createdSnapshots : final.createdSnapshots = start.createdSnapshots
  currentStates : final.currentStates = start.currentStates
  result : final.result = start.result

namespace Beside

theorem atStep (start : Working Bytes) (steps : Nat) : Beside start (start.atStep steps) :=
  { files := fun _ _ => rfl
    temporaries := Nat.le_refl _
    data := rfl
    createdSnapshots := rfl
    currentStates := rfl
    result := rfl }

theorem trans {middle final : Working Bytes} (first : Beside start middle)
    (second : Beside middle final) : Beside start final := by
  constructor
  · intro path older
    have stillOlder : ∀ index, path = .temporary index → index < middle.temporaries := by
      intro index isPath
      have bound := older index isPath
      have grown := first.temporaries
      omega
    exact (second.files path stillOlder).trans (first.files path older)
  · exact Nat.le_trans first.temporaries second.temporaries
  · exact second.data.trans first.data
  · exact second.createdSnapshots.trans first.createdSnapshots
  · exact second.currentStates.trans first.currentStates
  · exact second.result.trans first.result

theorem reserve (start : Working Bytes) : Beside start (start.reserve (start.temporaries + 1)) :=
  { atStep start start.steps with temporaries := Nat.le_succ _ }

theorem write {middle : Working Bytes} (beside : Beside start middle)
    {index : Nat} (newer : start.temporaries ≤ index) (content : Option Bytes) :
    Beside start (middle.write (.temporary index) content) := by
  refine { beside with files := ?_ }
  intro path older
  have different : path ≠ .temporary index := by
    intro same
    have bound := older index same
    omega
  rw [Working.files_write, if_neg different]
  exact beside.files path older

theorem resource {final : Working Bytes} (beside : Beside start final) (identity : Identity) :
    final.resource identity = start.resource identity := by
  unfold Working.resource
  rw [beside.data]

theorem unlink (environment : Environment Bytes) {middle : Working Bytes}
    (beside : Beside start middle) :
    Beside start (unlinkPaths environment [.temporary start.temporaries] middle) := by
  apply unlinkPaths_keeps _ _ beside
  · intro working count holds
    exact holds.trans (Beside.atStep _ count)
  · intro path member working holds
    rw [List.mem_singleton.mp member]
    exact holds.write (Nat.le_refl _) none

end Beside

theorem makeTemporary_then {Value : Type} {rest : Path → Stage Bytes Value}
    {returned : Value → Working Bytes → Prop} (goesOn : ∀ reserved, Beside start reserved →
      start.temporaries < reserved.temporaries →
      (∀ content steps, Beside start ((reserved.write (.temporary start.temporaries) content).atStep
          steps)) →
      Ensures reserved (rest (.temporary start.temporaries)) returned (Beside start)) :
    Ensures start (makeTemporary environment >>= rest) returned (Beside start) := by
  apply Ensures.bind makeTemporary_ensures
  · intro final failed
    obtain ⟨steps, isFinal⟩ := failed
    rw [isFinal]
    exact Beside.atStep start steps
  intro candidate reserved made
  obtain ⟨isCandidate, steps, isReserved⟩ := made
  have beside : Beside start reserved := by
    rw [isReserved]
    exact (Beside.reserve start).trans (Beside.atStep _ steps)
  rw [isCandidate]
  apply goesOn reserved beside
  · rw [isReserved]
    exact Nat.lt_succ_self _
  · intro content steps
    exact (beside.write (Nat.le_refl _) content).trans (Beside.atStep _ steps)

variable (identity : Identity) (currentFile : String)

/-- The backup is a new temporary file with the bytes of the canonical one. -/
theorem createRollbackBackup_ensures : Ensures start (createRollbackBackup environment currentFile)
      (fun backup final => Beside start final ∧ backup = .temporary start.temporaries ∧
        start.temporaries < final.temporaries ∧
        final.files backup = start.files (.media currentFile) ∧
        (start.files (.media currentFile)).isSome = true)
      (Beside start) := by
  unfold createRollbackBackup
  apply makeTemporary_then
  intro reserved beside larger written
  apply seq ((copyFile_ensures (.media currentFile) _).orUndo ?_)
  · intro _ final copied
    obtain ⟨bytes, steps', present, isFinal⟩ := copied
    have sourceSame : reserved.files (.media currentFile) = start.files (.media currentFile) :=
      beside.files _ nofun
    rw [sourceSame] at present
    subst isFinal
    apply Ensures.pure
    refine ⟨written _ _, rfl, larger, ?_, ?_⟩
    · rw [present]
      exact (Working.files_write _ _ _ _).trans (if_pos rfl)
    · rw [present]
      rfl
  · intro failure state copied
    obtain ⟨content, steps', isState⟩ := copied
    rw [isState]
    exact (written content steps').unlink environment

/-- The states that a transaction on one canonical file remembers. -/
def Working.withStates (working : Working Bytes) (states : List CurrentState) : Working Bytes :=
  { working with currentStates := states }

theorem backUpCurrent_ensures : Ensures start (backUpCurrent environment currentFile)
      (fun _ final => final = start ∨ ∃ middle index, Beside start middle ∧
        final = middle.withStates [⟨currentFile, true, some (.temporary index)⟩])
      (Beside start) := by
  apply Ensures.branch
  · intro _
    apply seq (createRollbackBackup_ensures currentFile)
    intro backup middle made
    obtain ⟨beside, isBackup, _⟩ := made
    subst isBackup
    exact change_last (.inr ⟨middle, _, beside, rfl⟩)
  · intro _
    exact Ensures.pure (.inl rfl)

theorem replaceByCopy_ensures {path : Path}
    (notTemporary : ∀ index, path ≠ .temporary index) (currentFile : String) :
    Ensures start (replaceByCopy environment path currentFile)
      (fun _ final => ∃ middle bytes steps, Beside start middle ∧ start.files path = some bytes ∧
        final = (middle.write (.media currentFile) (some bytes)).atStep steps)
      (Beside start) := by
  unfold replaceByCopy
  apply makeTemporary_then
  intro reserved beside _ written
  refine Ensures.orUndo (?_ : Ensures reserved _ _ (Beside start)) ?_
  · apply Ensures.bind (copyFile_ensures path _)
    · intro final failed
      obtain ⟨content, steps', isFinal⟩ := failed
      rw [isFinal]
      exact written content steps'
    intro _ copied isCopied
    obtain ⟨bytes, steps', present, isCopied⟩ := isCopied
    rw [beside.files path (fun index same => absurd same (notTemporary index))] at present
    subst isCopied
    apply (replaceFile_ensures _ _).weaken
    · intro _ final replaced
      obtain ⟨bytes', steps'', holds, isFinal⟩ := replaced
      have isBytes : bytes' = bytes := by
        rw [Working.files_atStep, Working.files_write, if_pos rfl] at holds
        exact (Option.some.inj holds).symm
      refine ⟨((reserved.write (.temporary start.temporaries)
        (some bytes)).atStep steps').write (.temporary start.temporaries)
          none, bytes, steps'', ?_, present, ?_⟩
      · exact (written (some bytes) steps').write (Nat.le_refl _) none
      · rw [isFinal, isBytes]
        rfl
    · intro final failed
      obtain ⟨steps'', isFinal⟩ := failed
      rw [isFinal]
      exact (written (some bytes) steps').trans (Beside.atStep _ steps'')
  · intro failure state interrupted
    exact interrupted.unlink environment

/-- The canonical file as it was found: absent, or with its bytes in a backup
that was made since. -/
def Found (start working : Working Bytes) (state : CurrentState) : Prop :=
  (state.existed = false ∧ state.backup = none ∧ start.files (.media state.currentFile) = none) ∨
  ∃ index, state.existed = true ∧ state.backup = some (.temporary index) ∧
    start.temporaries ≤ index ∧ index < working.temporaries ∧
    (start.files (.media state.currentFile)).isSome = true ∧
    working.files (.temporary index) = start.files (.media state.currentFile)

theorem Found.temporary {state : CurrentState} (found : Found start working state) :
    ∀ path, state.backup = some path → ∃ index, path = .temporary index := by
  intro path isBackup
  rcases found with missing | present
  · rw [missing.2.1] at isBackup
    cases isBackup
  · obtain ⟨index, _, named, _⟩ := present
    rw [named] at isBackup
    cases isBackup
    exact ⟨index, rfl⟩

theorem rememberCurrent_ensures : Ensures start (rememberCurrent environment currentFile)
      (fun _ final => ∃ middle state, Beside start middle ∧
        state.currentFile = currentFile ∧ Found start middle state ∧
        final = middle.remember state)
      (Beside start) := by
  apply Ensures.branch
  · intro _
    apply seq (createRollbackBackup_ensures currentFile)
    intro backup middle made
    obtain ⟨beside, isBackup, larger, copied, isSome⟩ := made
    subst isBackup
    apply change_last
    refine ⟨middle, _, beside, rfl, .inr ?_, rfl⟩
    exact ⟨_, rfl, rfl, Nat.le_refl _, larger, isSome, copied⟩
  · intro missing
    apply change_last
    refine ⟨start, _, Beside.atStep start start.steps, rfl, .inl ?_, rfl⟩
    refine ⟨rfl, rfl, Option.isNone_iff_eq_none.mp ?_⟩
    exact Option.isSome_eq_false_iff.mp missing

theorem takeNumber_ensures : Ensures start (takeNumber identity)
      (fun version final => final = start ∧
        nextVersion (start.resource identity).versions = some version)
      (fun final => final = start) := by
  apply of_outcome
  unfold takeNumber
  cases taken : nextVersion (start.resource identity).versions with
  | some version => exact ⟨rfl, rfl⟩
  | none => rfl

/-- The source has been copied to the snapshot of the next number and its
record appended. -/
structure Appended (identity : Identity) (source prompt : String)
    (metadata : List (String × Json)) (remember : Json → Int)
    (selects : Bool) (start : Working Bytes) (version : Int) (final : Working Bytes) : Prop where
  ofNumber : nextVersion (start.resource identity).versions = some version
  byCopy : ∃ bytes timestamp createdAt steps, start.files (.media source) = some bytes ∧
    final = (((start.write (projectFile (versionRelPath identity version
        timestamp)) (some bytes)).noteSnapshot (projectFile (versionRelPath
          identity version timestamp))).putResource identity
        ((start.resource identity).append version
          (versionRelPath identity version timestamp) prompt createdAt
          metadata remember selects)).atStep steps

/-- Nothing is noted or reported, and the other resources stay. -/
structure Confined (identity : Identity) (start final : Working Bytes) : Prop where
  states : final.currentStates = start.currentStates
  result : final.result = start.result
  data : ∀ other, other ≠ identity → final.data.get? other = start.data.get? other
  snapshots : ∀ other number timestamp, other ≠ identity → identity.resourceType ∈ resourceTypes →
    other.resourceType ∈ resourceTypes →
    final.files (.managed (versionRelPath other number timestamp)) =
      start.files (.managed (versionRelPath other number timestamp))

theorem Appended.confined {final : Working Bytes} {identity : Identity}
    {source prompt : String} {metadata : List (String × Json)}
    {remember : Json → Int} {selects : Bool} {version : Int}
    (appended : Appended identity source prompt metadata remember selects
      start version final) : Confined identity start final := by
  obtain ⟨bytes, since, createdAt, steps, _, isFinal⟩ := appended.byCopy
  rw [projectFile_versionRelPath] at isFinal
  subst isFinal
  refine ⟨rfl, rfl, ?_, ?_⟩
  · intro other different
    show (start.data.put identity _).get? other = _
    rw [Dict.get?_put, if_neg different]
  · intro other number timestamp different supported otherSupported
    refine (Working.files_write _ _ _ _).trans (if_neg ?_)
    intro same
    exact different (versionRelPath_injective otherSupported supported (Path.managed.inj same)).1

/-- At most the snapshot of the next number has been written. -/
def Unappended (identity : Identity) (start final : Working Bytes) : Prop :=
  ∃ steps, final = start.atStep steps ∨ ∃ version timestamp content,
    nextVersion (start.resource identity).versions = some version ∧
    final = (start.write (projectFile (versionRelPath identity version
      timestamp)) content).atStep steps

theorem appendVersion_ensures (source prompt : String)
    (metadata : List (String × Json)) (remember : Json → Int) (selects : Bool) :
    Ensures start (appendVersion environment identity source prompt metadata remember selects)
      (Appended identity source prompt metadata remember selects start)
      (Unappended identity start) := by
  unfold appendVersion
  apply Ensures.bind (takeNumber_ensures identity)
  · intro final isFinal
    exact ⟨start.steps, .inl isFinal⟩
  intro version numbered isNumbered
  obtain ⟨same, taken⟩ := isNumbered
  subst same
  apply Ensures.read
  apply passStep_then (fun steps => ⟨steps, .inl rfl⟩)
  intro steps
  apply Ensures.bind (copyFile_ensures (.media source) _)
  · intro final copied
    obtain ⟨content, steps', isFinal⟩ := copied
    exact ⟨steps', .inr ⟨version, _, content, taken, isFinal⟩⟩
  intro _ copied isCopied
  obtain ⟨bytes, steps', present, isCopied⟩ := isCopied
  subst isCopied
  apply Ensures.change
  apply Ensures.change
  apply Ensures.pure
  exact ⟨taken, bytes, _, _, steps', present, rfl⟩

theorem trackCurrent_ensures (remember : Json → Int) :
    Ensures start (trackCurrent environment identity currentFile remember)
      (fun _ final => final = start ∨ ∃ version,
        Appended identity currentFile "" [] remember true start version final)
      (Unappended identity start) := by
  apply Ensures.branch
  · intro _
    apply seq (appendVersion_ensures identity currentFile "" [] remember true)
    intro version final isAppended
    exact Ensures.pure (.inr ⟨version, isAppended⟩)
  · intro _
    exact Ensures.pure (.inl rfl)

/-! ## The history file -/

section History

variable {codec : VersionsCodec Bytes}

theorem readVersionsFile_ensures : Ensures start (readVersionsFile environment)
      (fun snapshot final => snapshot = start.files versionsFile ∧
        Passed start final) (Passed start) := by
  unfold readVersionsFile
  apply passStep_then (fun steps => ⟨steps, rfl⟩)
  intro steps
  exact read_last ⟨rfl, steps, rfl⟩

/-- The working copy of the document. -/
def Working.withData (working : Working Bytes) (data : VersionsData) : Working Bytes :=
  { working with data := data }

theorem loadVersions_ensures : Ensures start (loadVersions codec environment)
      (fun _ final => ∃ data steps, start.history? codec = some data ∧
        final = (start.withData data).atStep steps)
      (Passed start) := by
  unfold loadVersions
  apply passStep_then (fun steps => ⟨steps, rfl⟩)
  intro steps
  apply Ensures.demand
  · intro _
    exact ⟨steps, rfl⟩
  · intro decodes
    obtain ⟨data, decoded⟩ := Option.isSome_iff_exists.mp decodes
    refine change_last ⟨data, steps, decoded, ?_⟩
    rw [decoded]
    rfl

theorem saveVersions_ensures : Ensures start (saveVersions codec environment)
      (fun _ => Passed (start.write versionsFile
        (some (codec.dump start.data)))) (Passed start) := by
  unfold saveVersions
  apply passStep_then (fun steps => ⟨steps, rfl⟩)
  intro _
  apply passStep_then (fun steps => ⟨steps, rfl⟩)
  intro steps
  exact change_last ⟨steps, rfl⟩

end History

end MatrixSpooll.Version
