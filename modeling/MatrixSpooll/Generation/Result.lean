import MatrixSpooll.Library.Json

/-!
# The result of a generation request

A request selects its targets, the builder takes in what is left alone or
cannot be generated, and each target is then recorded with its outcome; a batch
that is refused is recorded by its tickets.  The model validates the result the
way `GenerationBatchResult` does.
-/

namespace MatrixSpooll.Generation

open Library List

inductive ArtifactStatus where
  | current
  | stale
  | missing
  | blocked
  deriving DecidableEq

structure ArtifactBlocker where
  code : String
  path : String
  detail : String

structure Candidate where
  unitId : String
  artifactKey : Option String
  artifactPath : Option String

structure TargetState where
  candidate : Candidate
  status : Option ArtifactStatus
  blocker : Option ArtifactBlocker

abbrev TargetState.unitId (state : TargetState) : String := state.candidate.unitId

/-! ## Selection -/

inductive SelectionMode where
  | explicit
  | missingOnly

structure Selection where
  mode : SelectionMode
  targets : List TargetState
  skipped : List TargetState
  unavailable : List TargetState
  unmatchedIds : List String

section Select

variable (compare : String → String → Except String (ArtifactStatus × Option ArtifactBlocker))

def observeArtifactStatus (candidate : Candidate) :
    Option ArtifactStatus × Option ArtifactBlocker :=
  match candidate.artifactPath, candidate.artifactKey with
  | none, _ | some "", _ => (some .missing, none)
  | some _, none => (none, none)
  | some path, some key =>
    match compare key path with
    | .error detail => (some .blocked, some ⟨"artifact_currency_unavailable", path, detail⟩)
    | .ok (status, blocker) => (some status, blocker)

def artifactIsReusable (state : TargetState) : Bool :=
  state.status = some .current || state.status = some .stale

/-- `list(dict.fromkeys(ids))`, which keeps the first of equal ids. -/
def fromKeys (ids : List String) : List String := ids.reverse.dedup.reverse

/-- The state of an id in the dictionary, where the last one stays. -/
def byId (states : List TargetState) (unitId : String) : Option TargetState :=
  states.reverse.find? (fun state => state.unitId = unitId)

def selectGenerationTargets (candidates : List Candidate) (requestedIds : Option (List String))
    (reusableOverride : Option (Candidate → Bool)) : Except String Selection :=
  let states := candidates.map (fun candidate => TargetState.mk candidate
    (observeArtifactStatus compare candidate).1 (observeArtifactStatus compare candidate).2)
  let named := states.filter (fun state => state.unitId ≠ "")
  match requestedIds with
  | some [] => .error "显式 ID 集合不能为空：省略该参数表示只补缺失项"
  | some requested =>
    let wanted := fromKeys requested
    .ok ⟨.explicit, wanted.filterMap (byId named), [], [],
      wanted.filter (fun unitId => (byId named unitId).isNone)⟩
  | none =>
    let isBlocked := fun state : TargetState => decide (state.status = some .blocked)
    let reusable := fun state : TargetState =>
      artifactIsReusable state || reusableOverride.any (fun override => override state.candidate)
    let readable := named.filter (fun state => !isBlocked state)
    .ok ⟨.missingOnly, readable.filter (fun state => !reusable state), readable.filter reusable,
      named.filter isBlocked, []⟩

end Select

/-! ## Recording -/

inductive Action where
  | retry
  | fixInput
  | generateDependency
  | generateTts
  | regenerateTts
  | waitForTask
  | replanUnit
  | confirmRequestDuration
  | configureProvider
  | repairArtifactState
  | retryProjectMigration
  | none

structure Problem where
  code : String
  detail : String
  action : Action
  params : List (String × Json)

inductive TaskState where
  | notQueued
  | succeeded
  | failed
  | cancelled
  | interrupted

structure ProviderCheckpoint where
  submitted : Bool
  providerId : Option String
  providerJobId : Option String

inductive ItemState where
  | succeeded
  | failed
  | blocked
  deriving DecidableEq

structure Item where
  unitId : String
  state : ItemState
  artifactKey : Option String
  artifactPath : Option String
  taskId : Option String
  taskState : TaskState
  artifactStatus : Option ArtifactStatus
  providerCheckpoint : Option ProviderCheckpoint
  problem : Option Problem
  /-- `_problem_matches_state`. -/
  explained : problem.isNone = decide (state = .succeeded)

structure SkippedItem where
  unitId : String
  artifactKey : Option String
  artifactPath : Option String
  artifactStatus : Option ArtifactStatus

/-- `GenerationResultBuilder`; what it has seen is what it has listed. -/
structure Builder where
  operation : String
  selection : SelectionMode
  items : List Item
  skipped : List SkippedItem
  seen : List String
  distinct : seen.Nodup
  listed : (items.map Item.unitId ++ skipped.map SkippedItem.unitId).Perm seen

namespace Builder

def new (operation : String) (selection : SelectionMode) : Builder :=
  ⟨operation, selection, [], [], [], .nil, .nil⟩

variable (builder : Builder)

def record (item : Item) : Except String Builder :=
  if known : item.unitId ∈ builder.seen then
    .error ("unit " ++ item.unitId ++ " already recorded")
  else
    .ok { builder with
      items := builder.items ++ [item]
      seen := item.unitId :: builder.seen
      distinct := nodup_cons.mpr ⟨known, builder.distinct⟩
      listed := by
        rw [map_append, append_assoc]
        exact perm_middle.trans (builder.listed.cons _) }

def skip (state : TargetState) : Except String Builder :=
  if known : state.unitId ∈ builder.seen then
    .error ("unit " ++ state.unitId ++ " already recorded")
  else
    .ok { builder with
      skipped := builder.skipped ++ [⟨state.unitId, state.candidate.artifactKey,
        state.candidate.artifactPath, state.status⟩]
      seen := state.unitId :: builder.seen
      distinct := nodup_cons.mpr ⟨known, builder.distinct⟩
      listed := by
        rw [map_append, ← append_assoc]
        exact perm_append_comm.trans (builder.listed.cons _) }

def block (unitId : String) (problem : Problem) (state : Option TargetState) :
    Except String Builder :=
  builder.record ⟨unitId, .blocked, state.bind (·.candidate.artifactKey),
    state.bind (·.candidate.artifactPath), none, .notQueued, state.bind (·.status), none,
    some problem, rfl⟩

def artifactStateProblem (state : TargetState) : Problem :=
  { code := "generation_artifact_state_unavailable"
    detail := (state.blocker.map ArtifactBlocker.detail).getD "artifact state is unavailable"
    action := .repairArtifactState
    params := (state.blocker.map (fun blocker => ("blocker_code", .str blocker.code))).toList }

def absorb (selection : Selection) : Except String Builder := do
  let builder ← selection.skipped.foldlM skip builder
  let builder ← selection.unavailable.foldlM (fun builder state =>
    builder.block state.unitId (artifactStateProblem state) (some state)) builder
  selection.unmatchedIds.foldlM (fun builder unitId => builder.block unitId
    { code := "generation_unit_not_found"
      detail := "unit " ++ unitId ++ " does not exist in the current project"
      action := .fixInput
      params := [] } none) builder

end Builder

/-! ## Refusing a batch -/

structure Ticket where
  unitId : String
  problems : List Problem

inductive Decision where
  | admitted
  | confirmationRequired
  | blocked
  deriving DecidableEq

abbrev Admission := List Ticket

namespace Admission

variable (tickets : Admission)

def refused : List Ticket :=
  tickets.filter (fun ticket => !ticket.problems.isEmpty)

def decision : Decision :=
  if tickets.refused.isEmpty then .admitted
  else if tickets.refused.all (fun ticket => ticket.problems.all (fun problem =>
      problem.code = "reference_duration_confirmation_required")) then .confirmationRequired
  else .blocked

def withheldProblemFor (ticket : Ticket) : Option Problem :=
  let holding := tickets.refused.map Ticket.unitId
  if holding.isEmpty || !ticket.problems.isEmpty then none
  else some
    { code := "generation_batch_admission_withheld"
      detail := "本次批量请求未创建任何任务：同批的 " ++ "、".intercalate holding ++
        " 未通过准入。修复后重试即可连同本 unit 一起提交。"
      action := .retry
      params := [("blocked_unit_ids", .list (holding.map .str))] }

/-- One turn of `record_refusal`. -/
def refuse (modelDump : Problem → Json) (states : String → Option TargetState)
    (builder : Builder) (ticket : Ticket) : Except String Builder :=
  match ticket.problems, tickets.withheldProblemFor ticket with
  | [], none => .error "a refused batch leaves no ticket without a reason"
  | [], some problem | [problem], _ => builder.block ticket.unitId problem (states ticket.unitId)
  | problem :: others, _ =>
    let params := Json.put problem.params "problems"
      (.list ((problem :: others).map modelDump))
    builder.block ticket.unitId { problem with params := params } (states ticket.unitId)

def recordRefusal (modelDump : Problem → Json) (states : String → Option TargetState)
    (builder : Builder) : Except String Builder :=
  if tickets.decision = .admitted then .error "record_refusal requires a refused admission"
  else tickets.foldlM (tickets.refuse modelDump states) builder

end Admission

/-! ## The result -/

structure BatchResult where
  operation : String
  selection : SelectionMode
  requested : List String
  succeeded : List String
  failed : List String
  blocked : List String
  skipped : List SkippedItem
  items : List Item

namespace BatchResult

variable (result : BatchResult)

def bucket : ItemState → List String
  | .succeeded => result.succeeded
  | .failed => result.failed
  | .blocked => result.blocked

def union : List String := result.succeeded ++ result.failed ++ result.blocked

/-- `_sets_are_exhaustive_and_exclusive`. -/
def validate : Except String BatchResult :=
  let skippedIds := result.skipped.map SkippedItem.unitId
  if ¬ result.succeeded.Nodup then .error "duplicate ids in succeeded"
  else if ¬ result.failed.Nodup then .error "duplicate ids in failed"
  else if ¬ result.blocked.Nodup then .error "duplicate ids in blocked"
  else if ¬ result.union.Nodup then
    .error "succeeded / failed / blocked must be mutually exclusive"
  else if ¬ (result.union.Perm result.requested.dedup ∧ result.requested.Nodup) then
    .error "requested must equal succeeded ∪ failed ∪ blocked without duplicates"
  else if ¬ (result.items.map Item.unitId).Perm result.requested then
    .error "items must cover exactly the requested ids"
  else
    match result.items.find? (fun item => item.unitId ∉ result.bucket item.state) with
    | some item => .error ("item " ++ item.unitId ++ " state does not match its bucket")
    | none =>
      if ¬ skippedIds.Nodup then .error "duplicate ids in skipped"
      else if skippedIds.any (fun unitId => unitId ∈ result.requested) then
        .error "skipped ids must not appear in requested"
      else .ok result

end BatchResult

def Builder.result (builder : Builder) : BatchResult :=
  let ids := fun state =>
    (builder.items.filter (fun item => item.state = state)).map Item.unitId
  { operation := builder.operation
    selection := builder.selection
    requested := builder.items.map Item.unitId
    succeeded := ids .succeeded
    failed := ids .failed
    blocked := ids .blocked
    skipped := builder.skipped
    items := builder.items }

def Builder.build (builder : Builder) : Except String BatchResult :=
  builder.result.validate

/-! ## Every target is accounted for -/

/-- What a part of the recording adds, if none of it has been seen. -/
def Lists (turn : Builder → Except String Builder) (ids : List String) : Prop :=
  ∀ builder : Builder, (ids ++ builder.seen).Nodup →
    ∃ next, turn builder = .ok next ∧ next.seen.Perm (ids ++ builder.seen)

theorem Lists.bind {first second : Builder → Except String Builder} {before after : List String}
    (earlier : Lists first before) (later : Lists second after) :
    Lists (fun builder => first builder >>= second) (before ++ after) := by
  intro builder fresh
  have moved : (before ++ after ++ builder.seen).Perm (after ++ (before ++ builder.seen)) := by
    rw [← append_assoc]
    exact perm_append_comm.append_right _
  have apart := moved.nodup_iff.mp fresh
  obtain ⟨middle, ran, seen⟩ := earlier builder (nodup_append.mp apart).2.1
  have seenAfter := seen.append_left after
  obtain ⟨next, runs, all⟩ := later middle (seenAfter.nodup_iff.mpr apart)
  refine ⟨next, ?_, all.trans (seenAfter.trans moved.symm)⟩
  dsimp only
  rw [ran]
  exact runs

theorem Lists.foldlM {Entry : Type} {turn : Builder → Entry → Except String Builder}
    {key : Entry → String} {entries : List Entry}
    (each : ∀ entry ∈ entries, Lists (fun builder => turn builder entry) [key entry]) :
    Lists (fun builder => entries.foldlM turn builder) (entries.map key) := by
  induction entries with
  | nil => exact fun builder _ => ⟨builder, rfl, .refl _⟩
  | cons entry entries induction =>
    obtain ⟨here, later⟩ := forall_mem_cons.mp each
    simp only [foldlM_cons]
    exact here.bind (induction later)

theorem lists_record (item : Item) : Lists (fun builder => builder.record item) [item.unitId] := by
  intro builder fresh
  exact ⟨_, dif_neg (nodup_cons.mp fresh).1, .refl _⟩

theorem lists_absorb (selection : Selection) : Lists (fun builder => builder.absorb selection)
    (selection.skipped.map TargetState.unitId ++
      (selection.unavailable.map TargetState.unitId ++ selection.unmatchedIds.map id)) := by
  refine Lists.bind (.foldlM ?_)
    (.bind (.foldlM (fun _ _ => lists_record _)) (.foldlM (fun _ _ => lists_record _)))
  intro state _ builder fresh
  exact ⟨_, dif_neg (nodup_cons.mp fresh).1, .refl _⟩

theorem Admission.lists_recordRefusal {tickets : Admission} (held : tickets.decision ≠ .admitted)
    (modelDump : Problem → Json) (states : String → Option TargetState) :
    Lists (tickets.recordRefusal modelDump states) (tickets.map Ticket.unitId) := by
  have someRefused : tickets.refused.isEmpty = false := by
    cases none : tickets.refused.isEmpty with
    | false => rfl
    | true => simp [decision, none] at held
  unfold recordRefusal
  simp only [held, if_false]
  apply Lists.foldlM
  intro ticket _
  unfold refuse
  split
  · next noProblem noReason =>
    simp [withheldProblemFor, noProblem] at noReason
    simp [noReason] at someRefused
  all_goals exact lists_record _

theorem filterMap_byId (states : List TargetState) (wanted : List String) :
    (wanted.filterMap (byId states)).map TargetState.unitId =
      wanted.filter (fun unitId => !(byId states unitId).isNone) := by
  induction wanted with
  | nil => rfl
  | cons unitId wanted induction =>
    cases found : byId states unitId with
    | none => simpa [found] using induction
    | some state =>
      have same : state.unitId = unitId := by
        unfold byId at found
        simpa using find?_some found
      simpa [found, same] using induction

theorem selected_perm {compare} {candidates : List Candidate}
    {requestedIds : Option (List String)} {reusableOverride : Option (Candidate → Bool)}
    {selection : Selection} (named : "" ∉ candidates.map Candidate.unitId)
    (selected : selectGenerationTargets compare candidates requestedIds reusableOverride =
      .ok selection) :
    (selection.skipped.map TargetState.unitId ++ (selection.unavailable.map TargetState.unitId ++
      selection.unmatchedIds.map id) ++ selection.targets.map TargetState.unitId).Perm
        (requestedIds.elim (candidates.map Candidate.unitId) fromKeys) := by
  unfold selectGenerationTargets at selected
  split at selected <;> cases selected
  · simp only [map_nil, nil_append, map_id, filterMap_byId]
    exact filter_append_perm _ _
  · simp only [map_nil, append_nil, Option.elim_none, ← map_append]
    have parts {first second third all rest : List TargetState} (outer : (first ++ rest).Perm all)
        (inner : (second ++ third).Perm rest) : (second ++ first ++ third).Perm all := by
      refine (perm_append_comm.append_right _).trans ?_
      rw [append_assoc]
      exact (inner.append_left first).trans outer
    refine ((parts (filter_append_perm _ _) (filter_append_perm _ _)).map _).trans
      (.of_eq ?_)
    rw [filter_eq_self.mpr, map_map]
    · rfl
    · intro state member
      obtain ⟨candidate, isCandidate, rfl⟩ := mem_map.mp member
      have nonempty : candidate.unitId ≠ "" :=
        fun empty => named (empty ▸ mem_map_of_mem isCandidate)
      simpa using nonempty

theorem bucket_perm (items : List Item) :
    (items.filter (fun item => item.state = .succeeded) ++
      items.filter (fun item => item.state = .failed) ++
      items.filter (fun item => item.state = .blocked)).Perm items := by
  induction items with
  | nil => exact .nil
  | cons item items induction =>
    cases kind : item.state
    · simpa [kind] using induction
    · rw [append_assoc] at induction
      simpa [kind] using perm_middle.trans (induction.cons item)
    · simpa [kind] using perm_middle.trans (induction.cons item)

theorem Builder.build_ok (builder : Builder) : builder.build = .ok builder.result ∧
    (builder.result.union ++ builder.result.skipped.map SkippedItem.unitId).Perm builder.seen := by
  have distinct : (builder.result.requested ++
      builder.result.skipped.map SkippedItem.unitId).Nodup :=
    builder.listed.nodup_iff.mpr builder.distinct
  obtain ⟨requested, skipped, apart⟩ := nodup_append.mp distinct
  have union : builder.result.union.Perm builder.result.requested := by
    have buckets := (bucket_perm builder.items).map Item.unitId
    rw [map_append, map_append] at buckets
    exact buckets
  have unionDistinct := union.nodup_iff.mpr requested
  obtain ⟨first, third, _⟩ := nodup_append.mp unionDistinct
  obtain ⟨first, second, _⟩ := nodup_append.mp first
  have placed : builder.result.items.find? (fun item =>
      item.unitId ∉ builder.result.bucket item.state) = none := by
    rw [find?_eq_none]
    intro item member
    have inBucket : item.unitId ∈ builder.result.bucket item.state := by
      cases kind : item.state <;>
        exact mem_map_of_mem (mem_filter.mpr ⟨member, by simp [kind]⟩)
    simpa using inBucket
  have noneBoth : (builder.result.skipped.map SkippedItem.unitId).any
      (fun unitId => unitId ∈ builder.result.requested) = false := by
    rw [any_eq_false]
    intro unitId isSkipped isRequested
    exact apart _ (of_decide_eq_true isRequested) _ isSkipped rfl
  have dedup : builder.result.requested.dedup = builder.result.requested := requested.dedup
  refine ⟨?_, (union.append_right _).trans builder.listed⟩
  unfold build BatchResult.validate
  rw [if_neg (not_not.mpr first), if_neg (not_not.mpr second), if_neg (not_not.mpr third),
    if_neg (not_not.mpr unionDistinct), dedup, if_neg (not_not.mpr ⟨union, requested⟩),
    if_neg (not_not.mpr (.refl _)), placed]
  simp only [skipped, not_true_eq_false, if_false, noneBoth, Bool.false_eq_true]

/-- The result lists these ids, each of them once. -/
def BatchResult.Accounts (result : BatchResult) (ids : List String) : Prop :=
  (result.union ++ result.skipped.map SkippedItem.unitId).Nodup ∧
    ∀ unitId, unitId ∈ result.union ++ result.skipped.map SkippedItem.unitId ↔ unitId ∈ ids

/-- A request of distinct candidates ends without an id being recorded twice, whether the batch is
refused or each target gets an outcome; the result lists every id that was asked for once, and a
target that was only missing has no usable or unreadable artifact. -/
theorem targets_accounted_once {compare} {candidates : List Candidate}
    (distinct : (candidates.map Candidate.unitId).Nodup)
    (named : "" ∉ candidates.map Candidate.unitId) {requestedIds : Option (List String)}
    {reusableOverride : Option (Candidate → Bool)} {selection : Selection}
    (selected : selectGenerationTargets compare candidates requestedIds reusableOverride =
      .ok selection) (operation : String) :
    (∀ (tickets : Admission) modelDump states, tickets.decision ≠ .admitted →
      (tickets.map Ticket.unitId).Perm (selection.targets.map TargetState.unitId) →
      ∃ result, ((Builder.new operation selection.mode).absorb selection >>=
          tickets.recordRefusal modelDump states >>= Builder.build) = .ok result ∧
        result.Accounts (requestedIds.getD (candidates.map Candidate.unitId))) ∧
    (∀ items : List Item,
      (items.map Item.unitId).Perm (selection.targets.map TargetState.unitId) →
      ∃ result, ((Builder.new operation selection.mode).absorb selection >>=
          (fun builder => items.foldlM Builder.record builder) >>= Builder.build) = .ok result ∧
        result.Accounts (requestedIds.getD (candidates.map Candidate.unitId))) ∧
    (requestedIds = none → ∀ target ∈ selection.targets, target.status ≠ some .current ∧
      target.status ≠ some .stale ∧ target.status ≠ some .blocked) := by
  have perm := selected_perm named selected
  have asked : (requestedIds.elim (candidates.map Candidate.unitId) fromKeys).Nodup ∧
      ∀ unitId, unitId ∈ requestedIds.elim (candidates.map Candidate.unitId) fromKeys ↔
        unitId ∈ requestedIds.getD (candidates.map Candidate.unitId) := by
    cases requestedIds with
    | none => exact ⟨distinct, fun _ => .rfl⟩
    | some requested => simp [fromKeys, nodup_dedup]
  have accounted {turn : Builder → Except String Builder} {ids : List String}
      (lists : Lists turn ids) (same : ids.Perm (selection.targets.map TargetState.unitId)) :
      ∃ result, ((Builder.new operation selection.mode).absorb selection >>= turn >>=
          Builder.build) = .ok result ∧
        result.Accounts (requestedIds.getD (candidates.map Candidate.unitId)) := by
    have whole := (same.append_left _).trans perm
    have fresh := whole.nodup_iff.mpr asked.1
    obtain ⟨builder, ran, seen⟩ := (lists_absorb selection).bind lists
      (Builder.new operation selection.mode) (by simpa [Builder.new] using fresh)
    have listed := (builder.build_ok.2.trans seen).trans (by simpa [Builder.new] using whole)
    refine ⟨builder.result, ?_, listed.nodup_iff.mpr asked.1, ?_⟩
    · dsimp only at ran
      rw [ran]
      exact builder.build_ok.1
    · intro unitId
      exact listed.mem_iff.trans (asked.2 unitId)
  refine ⟨?_, ?_, ?_⟩
  · intro tickets modelDump states held same
    exact accounted (Admission.lists_recordRefusal held modelDump states) same
  · intro items same
    exact accounted (.foldlM (fun item _ => lists_record item)) same
  · rintro rfl target isTarget
    cases selected
    obtain ⟨isReadable, notReusable⟩ := mem_filter.mp isTarget
    have readable := (mem_filter.mp isReadable).2
    simp only [artifactIsReusable, Bool.not_eq_true', Bool.or_eq_false_iff,
      decide_eq_false_iff_not] at notReusable readable
    exact ⟨notReusable.1.1, notReusable.1.2, readable⟩

/-- A missing unit is generated, a current one is left alone. -/
theorem missing_and_current_accounted : ∃ selection result, selectGenerationTargets
      (fun _ _ => .ok (.current, none))
      [⟨"S1", none, none⟩, ⟨"S2", some "storyboard:S2", some "storyboards/S2.png"⟩] none none =
        .ok selection ∧ selection.targets.map TargetState.unitId = ["S1"] ∧
      BatchResult.Accounts result ["S1", "S2"] := by
  have accounted := (targets_accounted_once (by decide) (by decide)
    (show selectGenerationTargets (fun _ _ => .ok (.current, none))
      [⟨"S1", none, none⟩, ⟨"S2", some "storyboard:S2", some "storyboards/S2.png"⟩] none none =
        .ok _ from rfl) "storyboards").2.1
    [⟨"S1", .succeeded, none, none, none, .succeeded, some .current, none, none, rfl⟩] (.refl _)
  obtain ⟨result, _, accounts⟩ := accounted
  exact ⟨_, result, rfl, rfl, accounts⟩

end MatrixSpooll.Generation
