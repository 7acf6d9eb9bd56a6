import MatrixSpooll.ProjectEvents.Channel
import Mathlib.Data.Multiset.Bind

/-!
# No change is swallowed

Every difference between two consecutive baselines is broadcast, or is left to
a batch in flight that describes it.  A batch that fails afterwards takes the
differences with it that were left to it alone; where no batch fails that way,
none is swallowed.
-/

namespace MatrixSpooll.ProjectEvents

open Library List

variable {Snapshot Fingerprint Detail : Type} {comparison : Comparison Snapshot Fingerprint Detail}
  {batch : TaskId → Batch Detail}

/-- One of the broadcasts has a change of this identity. -/
def Announces (broadcasts : List (Broadcast Fingerprint Detail)) (identity : Identity) : Prop :=
  ∃ broadcast ∈ broadcasts, identity ∈ broadcast.changes.map changeIdentity

instance (broadcasts : List (Broadcast Fingerprint Detail))
    (identity : Identity) : Decidable (Announces broadcasts identity) :=
  inferInstanceAs (Decidable (∃ broadcast ∈ broadcasts,
    identity ∈ broadcast.changes.map changeIdentity))

theorem Announces.mono {first second : List (Broadcast Fingerprint Detail)}
    {identity : Identity} (announced : Announces first identity)
    (included : first ⊆ second) : Announces second identity := by
  obtain ⟨broadcast, member, described⟩ := announced
  exact ⟨broadcast, included member, described⟩

namespace Channel

variable {channel before after : Channel Snapshot Fingerprint Detail}

/-- A change of this identity was broadcast with or after the rebuild. -/
def BroadcastSince (channel : Channel Snapshot Fingerprint Detail)
    (rebuild : Rebuild Detail) (identity : Identity) : Prop :=
  Announces (channel.broadcasts.drop rebuild.since) identity

instance (channel : Channel Snapshot Fingerprint Detail)
    (rebuild : Rebuild Detail) (identity : Identity) :
    Decidable (channel.BroadcastSince rebuild identity) :=
  inferInstanceAs (Decidable (Announces _ _))

/-- Every difference was broadcast or is described by one of the tasks. -/
def CoveredBy (batch : TaskId → Batch Detail) (channel : Channel Snapshot Fingerprint Detail)
    (tasks : List TaskId) : Prop :=
  ∀ rebuild ∈ channel.rebuilds, ∀ change ∈ rebuild.changes,
    channel.BroadcastSince rebuild (changeIdentity change) ∨
      ∃ task ∈ tasks, changeIdentity change ∈ (batch task).identities

/-- Nothing is left to the task alone: a difference that it describes was
broadcast or is described by another batch in flight. -/
def Unburdened (batch : TaskId → Batch Detail)
    (channel : Channel Snapshot Fingerprint Detail) (task : TaskId) : Prop :=
  ∀ rebuild ∈ channel.rebuilds, ∀ change ∈ rebuild.changes,
    changeIdentity change ∈ (batch task).identities →
      channel.BroadcastSince rebuild (changeIdentity change) ∨ ∃ other ∈ channel.running.erase task,
          changeIdentity change ∈ (batch other).identities

instance (channel : Channel Snapshot Fingerprint Detail) (task : TaskId) :
    Decidable (channel.Unburdened batch task) :=
  inferInstanceAs (Decidable (∀ rebuild ∈ channel.rebuilds,
    ∀ change ∈ rebuild.changes, _ → _ ∨ ∃ other ∈ _, _))

end Channel

/-- The batch that holds the lock. -/
def Lock.holder : Lock → Option TaskId
  | .rebuilding task _ => some task
  | _ => none

/-- A batch whose rebuild fails has nothing left to it alone. -/
def FailsUnburdened (batch : TaskId → Batch Detail)
    (channel : Channel Snapshot Fingerprint Detail) :
    ChannelEvent Snapshot → Prop
  | .fail => ∀ task ∈ channel.lock.holder, channel.Unburdened batch task
  | _ => True

instance (channel : Channel Snapshot Fingerprint Detail) :
    ∀ event, Decidable (FailsUnburdened batch channel event)
  | .fail => inferInstanceAs (Decidable (∀ task ∈ channel.lock.holder, _))
  | .hint _ | .emit _ | .startScan | .startBatch _ | .settle _ => instDecidableTrue

namespace Channel

variable {channel before after : Channel Snapshot Fingerprint Detail}

/-! ## The register of batches in flight -/

/-- The registered identities are those of the tasks that have not ended. -/
structure Registered (batch : TaskId → Batch Detail)
    (channel : Channel Snapshot Fingerprint Detail) : Prop where
  identities : channel.inflightBatchIdentities =
    (channel.running : Multiset TaskId).bind (fun task => (batch task).identities)
  holder : ∀ task coveredSources,
    channel.lock = .rebuilding task coveredSources → task ∈ channel.running

theorem Registered.mem_iff (registered : channel.Registered batch) (identity : Identity) :
    identity ∈ channel.inflightBatchIdentities ↔
      ∃ task ∈ channel.running, identity ∈ (batch task).identities := by
  rw [registered.identities]
  simp

variable {task : TaskId}

theorem Registered.emitted (registered : channel.Registered batch)
    (result : channel.applyEmittedBatch task (batch task) = some after) :
    after.Registered batch := by
  unfold applyEmittedBatch at result
  obtain ⟨_, added⟩ := Option.ite_none_left_eq_some.mp result
  cases added
  constructor
  · simp [registered.identities, ← Multiset.coe_add]
  · intro other coveredSources held
    exact mem_append_left _ (registered.holder other _ held)

theorem Registered.finish (registered : channel.Registered batch)
    (running : task ∈ channel.running) : (channel.finish task (batch task)).Registered batch := by
  constructor
  · have split := Multiset.cons_erase (Multiset.mem_coe.mpr running)
    rw [Multiset.coe_erase] at split
    simp only [Channel.finish, registered.identities]
    rw [← split, Multiset.cons_bind, add_tsub_cancel_left]
  · intro other coveredSources held
    cases held

/-! ## What a rebuild adds -/

/-- Broadcasts and baselines that are added to the record; the differences
that come with a new baseline are broadcast or left to a task. -/
structure Extends (batch : TaskId → Batch Detail)
    (before after : Channel Snapshot Fingerprint Detail)
    (more : List (Broadcast Fingerprint Detail)) : Prop where
  broadcasts : after.broadcasts = before.broadcasts ++ more
  rebuilds : ∃ found, after.rebuilds = before.rebuilds ++ found ∧
    ∀ rebuild ∈ found, rebuild.since = before.broadcasts.length ∧
      ∀ change ∈ rebuild.changes, Announces more (changeIdentity change) ∨ ∃ task ∈ before.running,
            changeIdentity change ∈ (batch task).identities

theorem Extends.of_eq (broadcasts : after.broadcasts = before.broadcasts)
    (rebuilds : after.rebuilds = before.rebuilds) :
    before.Extends batch after [] := by
  constructor
  · rw [broadcasts, append_nil]
  · exact ⟨[], by rw [rebuilds, append_nil], by simp⟩

/-- Rebuilds are dated by the broadcasts before them. -/
def Dated (channel : Channel Snapshot Fingerprint Detail) : Prop :=
  ∀ rebuild ∈ channel.rebuilds, rebuild.since ≤ channel.broadcasts.length

variable {more : List (Broadcast Fingerprint Detail)}

theorem Dated.extends (dated : before.Dated) (added : before.Extends batch after more) :
    after.Dated := by
  obtain ⟨found, rebuilds, recorded⟩ := added.rebuilds
  intro rebuild member
  rw [added.broadcasts, length_append]
  rw [rebuilds] at member
  rcases mem_append.mp member with earlier | new
  · have bound := dated rebuild earlier
    omega
  · have bound := (recorded rebuild new).1
    omega

theorem BroadcastSince.of_later {rebuild : Rebuild Detail} {identity : Identity}
    (broadcasts : after.broadcasts = before.broadcasts ++ more)
    (bound : rebuild.since ≤ before.broadcasts.length)
    (announced : before.BroadcastSince rebuild identity ∨ Announces more identity) :
    after.BroadcastSince rebuild identity := by
  unfold BroadcastSince
  rw [broadcasts, drop_append_of_le_length bound]
  rcases announced with earlier | later
  · exact earlier.mono (subset_append_left _ _)
  · exact later.mono (subset_append_right _ _)

/-- Where the tasks cover every difference, so do the tasks afterwards if
what a task described is broadcast when it ends. -/
theorem CoveredBy.extends {tasks : List TaskId} (dated : before.Dated)
    (covered : before.CoveredBy batch before.running) (added : before.Extends batch after more)
    (handed : ∀ task ∈ before.running, ∀ identity ∈ (batch task).identities,
      Announces more identity ∨ ∃ other ∈ tasks, identity ∈ (batch other).identities) :
    after.CoveredBy batch tasks := by
  obtain ⟨found, rebuilds, recorded⟩ := added.rebuilds
  intro rebuild member change difference
  rw [rebuilds] at member
  have settled : rebuild.since ≤ before.broadcasts.length ∧
      ((before.BroadcastSince rebuild (changeIdentity change) ∨
        Announces more (changeIdentity change)) ∨
        ∃ task ∈ before.running, changeIdentity change ∈ (batch task).identities) := by
    rcases mem_append.mp member with earlier | new
    · refine ⟨dated rebuild earlier, ?_⟩
      rcases covered rebuild earlier change difference with broadcast | left
      · exact .inl (.inl broadcast)
      · exact .inr left
    · obtain ⟨since, accounted⟩ := recorded rebuild new
      refine ⟨since.le, ?_⟩
      rcases accounted change difference with announced | left
      · exact .inl (.inr announced)
      · exact .inr left
  obtain ⟨bound, announced | ⟨task, running, described⟩⟩ := settled
  · exact .inl (.of_later added.broadcasts bound announced)
  · rcases handed task running _ described with later | left
    · exact .inl (.of_later added.broadcasts bound (.inr later))
    · exact .inr left

theorem broadcastSwept_eq (channel : Channel Snapshot Fingerprint Detail)
    (fingerprint : Fingerprint) (source : Source) (swept : List (Change Detail)) :
    ∃ more, channel.broadcastSwept fingerprint source swept =
        { channel with broadcasts := channel.broadcasts ++ more } ∧
      ∀ change ∈ swept, Announces more (changeIdentity change) := by
  unfold broadcastSwept
  split
  case isTrue empty =>
    refine ⟨[], by simp, ?_⟩
    simp [isEmpty_iff.mp empty]
  case isFalse =>
    refine ⟨_, rfl, ?_⟩
    intro change member
    exact ⟨_, mem_singleton_self _, mem_map_of_mem member⟩

theorem rebase_rebuilds (comparison : Comparison Snapshot Fingerprint Detail)
    (channel : Channel Snapshot Fingerprint Detail) (snapshot : Snapshot) :
    ∃ found, (channel.rebase comparison snapshot).rebuilds = channel.rebuilds ++ found ∧
      ∀ rebuild ∈ found, rebuild.since = channel.broadcasts.length ∧
        ∃ previous, channel.snapshot = some previous ∧
          rebuild.changes = comparison.diffSnapshots previous snapshot := by
  unfold rebase
  cases stored : channel.snapshot with
  | none => exact ⟨[], by simp, by simp⟩
  | some previous => exact ⟨_, rfl, by simp⟩

/-- A batch that settles broadcasts its own changes and what it swept. -/
theorem settleBatch_extends (registered : channel.Registered batch)
    (task : TaskId) (coveredSources : Finset Source) (snapshot : Snapshot) :
    ∃ more, channel.Extends batch (channel.settleBatch comparison task (batch task) coveredSources
          snapshot) more ∧
      ∀ identity ∈ (batch task).identities, Announces more identity := by
  obtain ⟨found, rebuilds, recorded⟩ := rebase_rebuilds comparison channel snapshot
  unfold settleBatch
  obtain ⟨more, swept, announced⟩ := broadcastSwept_eq
    ((channel.rebase comparison snapshot).broadcastChanges
      (comparison.fingerprint snapshot) (batch task).source
      (batch task).changes) (comparison.fingerprint snapshot)
    (resolveBatchSource coveredSources) (sweepUncoveredChanges comparison channel.snapshot snapshot
      channel.inflightBatchIdentities)
  rw [swept]
  refine ⟨_ :: more, ⟨append_assoc _ _ _, found, rebuilds, ?_⟩, ?_⟩
  · intro rebuild member
    obtain ⟨since, previous, stored, changes⟩ := recorded rebuild member
    refine ⟨since, ?_⟩
    intro change difference
    rw [changes] at difference
    -- a difference is swept unless a batch in flight describes it
    by_cases covered : changeIdentity change ∈ channel.inflightBatchIdentities
    · exact .inr ((registered.mem_iff _).mp covered)
    · rw [stored] at announced
      have found := announced change (mem_filter.mpr ⟨difference, by simpa using covered⟩)
      exact .inl (found.mono (subset_cons_self _ _))
  · intro identity described
    exact ⟨_, mem_cons_self, Multiset.mem_coe.mp described⟩

section

variable (comparison : Comparison Snapshot Fingerprint Detail)
  (channel : Channel Snapshot Fingerprint Detail) (snapshot : Snapshot)

theorem applyScanResult_extends [DecidableEq Fingerprint] : ∃ more, channel.Extends batch
      (channel.applyScanResult comparison snapshot) more := by
  obtain ⟨found, rebuilds, recorded⟩ := rebase_rebuilds comparison channel snapshot
  unfold applyScanResult
  cases stored : channel.snapshot with
  | none =>
    refine ⟨[], (append_nil _).symm, found, rebuilds, ?_⟩
    intro rebuild member
    obtain ⟨_, previous, impossible, _⟩ := recorded rebuild member
    simp [stored] at impossible
  | some previous =>
    dsimp only
    split
    · exact ⟨[], .of_eq rfl rfl⟩
    · obtain ⟨more, swept, announced⟩ := broadcastSwept_eq
        { channel.rebase comparison snapshot with pendingSources := ∅ }
        (comparison.fingerprint snapshot) (resolveBatchSource channel.pendingSources)
        (comparison.diffSnapshots previous snapshot)
      rw [swept]
      refine ⟨more, rfl, found, rebuilds, ?_⟩
      intro rebuild member
      obtain ⟨since, other, same, changes⟩ := recorded rebuild member
      obtain rfl : previous = other := by simpa [stored] using same
      refine ⟨since, ?_⟩
      intro change difference
      exact .inl (announced change (changes ▸ difference))

end

/-! ## Runs -/

/-- The register is right, and with it no difference is swallowed. -/
structure Accounted (batch : TaskId → Batch Detail)
    (channel : Channel Snapshot Fingerprint Detail) : Prop where
  registered : channel.Registered batch
  dated : channel.Dated
  covered : channel.CoveredBy batch channel.running

theorem Accounted.opened : (Channel.opened :
      Channel Snapshot Fingerprint Detail).Accounted batch := by
  refine ⟨⟨by simp [Channel.opened], ?_⟩, ?_, ?_⟩
  · intro task coveredSources held
    cases held
  · simp [Dated, Channel.opened]
  · simp [CoveredBy, Channel.opened]

theorem Accounted.extends (accounted : before.Accounted batch) (registered : after.Registered batch)
    (added : before.Extends batch after more) (running : before.running ⊆ after.running) :
    after.Accounted batch := by
  refine ⟨registered, accounted.dated.extends added, ?_⟩
  apply accounted.covered.extends accounted.dated added
  intro task member identity described
  exact .inr ⟨task, running member, described⟩

theorem mem_erase_or_eq {tasks : List TaskId} (task : TaskId)
    {other : TaskId} (member : other ∈ tasks) :
    other = task ∨ other ∈ tasks.erase task := by
  by_cases same : other = task
  · exact .inl same
  · exact .inr ((mem_erase_of_ne same).mpr member)

theorem Accounted.settleBatch (accounted : channel.Accounted batch)
    (running : task ∈ channel.running) (coveredSources : Finset Source) (snapshot : Snapshot) :
    (channel.settleBatch comparison task (batch task) coveredSources snapshot).Accounted batch := by
  obtain ⟨more, added, announced⟩ := settleBatch_extends
    accounted.registered task coveredSources snapshot
  have left : (channel.settleBatch comparison task (batch task)
      coveredSources snapshot).running = channel.running.erase task := by
    unfold Channel.settleBatch broadcastSwept
    split <;> rfl
  have registered : (channel.settleBatch comparison task (batch task)
      coveredSources snapshot).Registered batch := by
    have finished := accounted.registered.finish running
    unfold Channel.settleBatch broadcastSwept
    split <;> exact { finished with holder := nofun }
  refine ⟨registered, accounted.dated.extends added, ?_⟩
  apply accounted.covered.extends accounted.dated added
  intro other member identity described
  rw [left]
  rcases mem_erase_or_eq task member with same | remains
  · exact .inl (announced identity (same ▸ described))
  · exact .inr ⟨other, remains, described⟩

theorem Accounted.failBatch (accounted : channel.Accounted batch) (running : task ∈ channel.running)
    (unburdened : channel.Unburdened batch task) (coveredSources : Finset Source) :
    (channel.failBatch task (batch task) coveredSources).Accounted
      batch := by
  refine ⟨{ accounted.registered.finish running with holder := nofun }, accounted.dated, ?_⟩
  intro rebuild member change difference
  rcases accounted.covered rebuild member change difference with
    broadcast | ⟨other, remains, described⟩
  · exact .inl broadcast
  · rcases mem_erase_or_eq task remains with same | kept
    · exact unburdened rebuild member change difference (same ▸ described)
    · exact .inr ⟨other, kept, described⟩

theorem Accounted.next [DecidableEq Fingerprint]
    (accounted : before.Accounted batch) {event : ChannelEvent Snapshot}
    (condition : FailsUnburdened batch before event)
    (step : next comparison batch before event = some after) :
    after.Accounted batch := by
  cases event with
  | hint source =>
    cases step
    exact accounted.extends { accounted.registered with } (.of_eq rfl rfl) (Subset.refl _)
  | emit task =>
    have registered := accounted.registered.emitted step
    obtain ⟨_, added⟩ := Option.ite_none_left_eq_some.mp step
    cases added
    exact accounted.extends registered (.of_eq rfl rfl) (subset_append_left _ _)
  | startScan =>
    simp only [ProjectEvents.next] at step
    split at step <;> cases step
    exact accounted.extends { accounted.registered with holder := nofun }
      (.of_eq rfl rfl) (Subset.refl _)
  | startBatch task =>
    simp only [ProjectEvents.next] at step
    split at step
    · obtain ⟨running, taken⟩ := Option.ite_none_right_eq_some.mp step
      cases taken
      refine accounted.extends { accounted.registered with holder := ?_ }
        (.of_eq rfl rfl) (Subset.refl _)
      intro other coveredSources held
      cases held
      exact running
    · cases step
  | settle snapshot =>
    simp only [ProjectEvents.next] at step
    split at step <;> cases step
    case h_2 =>
      obtain ⟨identities, running⟩ : (before.applyScanResult comparison
          snapshot).inflightBatchIdentities = before.inflightBatchIdentities ∧
          (before.applyScanResult comparison snapshot).running = before.running := by
        unfold applyScanResult broadcastSwept
        repeat' split
        all_goals exact ⟨rfl, rfl⟩
      obtain ⟨more, added⟩ := applyScanResult_extends comparison before snapshot
      refine accounted.extends ⟨?_, nofun⟩
        ⟨added.broadcasts, added.rebuilds⟩ (running ▸ Subset.refl _)
      rw [identities, running]
      exact accounted.registered.identities
    case h_3 task coveredSources held =>
      exact accounted.settleBatch (accounted.registered.holder _ _ held) coveredSources snapshot
  | fail =>
    simp only [ProjectEvents.next] at step
    split at step <;> cases step
    case h_2 =>
      exact accounted.extends { accounted.registered with holder := nofun }
        (.of_eq rfl rfl) (Subset.refl _)
    case h_3 task coveredSources held =>
      exact accounted.failBatch (accounted.registered.holder _ _ held)
        (condition task (by simp [held, Lock.holder])) coveredSources

end Channel

open Channel in
/-- Every difference between two consecutive baselines is broadcast, with the
rebuild that found it or later, or a batch in flight describes it; when no
batch is in flight, all of them have been broadcast. -/
theorem no_change_is_swallowed [DecidableEq Fingerprint]
    (comparison : Comparison Snapshot Fingerprint Detail) (batch : TaskId → Batch Detail)
    {channel : Channel Snapshot Fingerprint Detail}
    (reachable : ((channelSystem comparison batch).restrict
      (FailsUnburdened batch)).Reachable channel) :
    channel.CoveredBy batch channel.running ∧ (channel.running = [] → ∀ rebuild ∈ channel.rebuilds,
        ∀ change ∈ rebuild.changes, channel.BroadcastSince rebuild (changeIdentity change)) := by
  have invariant : ((channelSystem comparison batch).restrict
      (FailsUnburdened batch)).Invariant (Accounted batch) := by
    constructor
    · intro start opened
      rw [show start = Channel.opened from opened]
      exact Accounted.opened
    · intro state event after accounted step
      exact accounted.next step.1 step.2
  have covered := (invariant.reachable reachable).covered
  refine ⟨covered, ?_⟩
  intro idle rebuild member change difference
  rcases covered rebuild member change difference with broadcast | left
  · exact broadcast
  · simp [idle] at left

/-! ## A batch that fails after changes were left to it -/

/-- Snapshots that list the entities present; the differences are the
entities added. -/
def presence : Comparison (List String) (List String) Unit :=
  { fingerprint := id
    diffSnapshots := fun previous snapshot =>
      (snapshot.filter (fun entity => entity ∉ previous)).map (fun entity =>
        { entityType := some "character"
          action := some "created"
          entityId := some entity
          detail := () }) }

/-- Each task announces the entity of its number. -/
def announcing (task : TaskId) : Batch Unit :=
  { source := .worker
    changes :=
      [{ entityType := some "character"
         action := some "created"
         entityId := some (toString task)
         detail := () }] }

/-- The first batch finds the entity of the second, which then fails. -/
def failingRun : List (ChannelEvent (List String)) :=
  [.startScan, .settle [], .emit 0, .emit 1, .startBatch 0,
    .settle ["0", "1"], .startBatch 1, .fail, .startScan,
    .settle ["0", "1"]]

/-- No batch is left, and the entity of the second was never announced. -/
theorem failed_batch_swallows_change :
    ∃ channel, (channelSystem presence announcing).Reachable channel ∧ channel.running = [] ∧
      ∃ rebuild ∈ channel.rebuilds, ∃ change ∈ rebuild.changes,
        ¬channel.BroadcastSince rebuild (changeIdentity change) := by
  have result : (failingRun.foldlM (next presence announcing)
      Channel.opened).map (fun channel => decide (channel.running = [] ∧
        ∃ rebuild ∈ channel.rebuilds, ∃ change ∈ rebuild.changes,
          ¬channel.BroadcastSince rebuild (changeIdentity change))) =
      some true := by
    decide +kernel
  obtain ⟨channel, run, swallowed⟩ := Option.map_eq_some_iff.mp result
  exact ⟨channel, ⟨_, failingRun, rfl, .of_foldlM (fun _ _ _ step => step)
    run⟩, of_decide_eq_true swallowed⟩

/-- The second batch settles; a third fails with nothing left to it. -/
def coveredRun : List (ChannelEvent (List String)) :=
  [.startScan, .settle [], .emit 0, .emit 1, .emit 2, .startBatch 0,
    .settle ["0", "1"], .startBatch 1, .settle ["0", "1"], .startBatch 2,
    .fail]

theorem settled_batches_announce_changes : ∃ channel, ((channelSystem presence announcing).restrict
        (FailsUnburdened announcing)).Reachable channel ∧
      channel.rebuilds.length = 2 ∧
      ∀ rebuild ∈ channel.rebuilds, ∀ change ∈ rebuild.changes,
        channel.BroadcastSince rebuild (changeIdentity change) := by
  have result : (coveredRun.foldlM (fun channel event =>
      if FailsUnburdened announcing channel event then
        next presence announcing channel event
      else none) Channel.opened).map (fun channel =>
        decide (channel.running = [] ∧ channel.rebuilds.length = 2)) =
      some true := by
    decide +kernel
  obtain ⟨channel, run, shape⟩ := Option.map_eq_some_iff.mp result
  obtain ⟨idle, length⟩ := of_decide_eq_true shape
  have reachable : ((channelSystem presence announcing).restrict
      (FailsUnburdened announcing)).Reachable channel :=
    ⟨_, coveredRun, rfl, .of_foldlM (fun _ _ _ step => Option.ite_none_right_eq_some.mp step) run⟩
  exact ⟨channel, reachable, length, (no_change_is_swallowed presence announcing reachable).2 idle⟩

end MatrixSpooll.ProjectEvents
