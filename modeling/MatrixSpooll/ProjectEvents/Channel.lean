import MatrixSpooll.Library.Transition
import Mathlib.Data.Finset.Basic

/-!
# The channel of a project

Polling scans and explicitly emitted batches of changes share a baseline
snapshot.  Each rebuilds the snapshot under the lock of the channel; what a
rebuild reads is any snapshot, since files change at any time.  A batch
broadcasts its own changes and sweeps up what it finds besides, except for the
changes that batches in flight describe.
-/

namespace MatrixSpooll.ProjectEvents

open Library

inductive Source where
  | worker
  | webui
  | filesystem
  deriving DecidableEq

structure Change (Detail : Type) where
  entityType : Option String
  action : Option String
  entityId : Option String
  detail : Detail

structure Identity where
  entityType : Option String
  action : Option String
  entityId : Option String
  deriving DecidableEq

/-- `_EQUIVALENT_ACTIONS.get(action, action)`. -/
def equivalentAction (action : String) : String :=
  if action = "reference_video_ready" then "video_ready"
  else if action = "free_creation_ready" then "updated"
  else action

def changeIdentity {Detail : Type} (change : Change Detail) : Identity :=
  { entityType := change.entityType
    action := change.action.map equivalentAction
    entityId := change.entityId }

/-- How snapshots are compared. -/
structure Comparison (Snapshot Fingerprint Detail : Type) where
  fingerprint : Snapshot → Fingerprint
  diffSnapshots : Snapshot → Snapshot → List (Change Detail)

/-- Tasks of emitted batches are named by numbers. -/
abbrev TaskId := Nat

structure Batch (Detail : Type) where
  source : Source
  changes : List (Change Detail)

def Batch.identities {Detail : Type} (batch : Batch Detail) : Multiset Identity :=
  (batch.changes.map changeIdentity : List Identity)

structure Broadcast (Fingerprint Detail : Type) where
  fingerprint : Fingerprint
  source : Source
  changes : List (Change Detail)

/-- A new baseline: its differences from the one before, and how many
broadcasts there were. -/
structure Rebuild (Detail : Type) where
  changes : List (Change Detail)
  since : Nat

inductive Lock where
  | free
  | scanning
  | rebuilding (task : TaskId) (coveredSources : Finset Source)

/-- `running` are the tasks whose identities are registered; `broadcasts` and
`rebuilds` record what has happened. -/
structure Channel (Snapshot Fingerprint Detail : Type) where
  snapshot : Option Snapshot
  fingerprint : Option Fingerprint
  lock : Lock
  pendingSources : Finset Source
  inflightBatchIdentities : Multiset Identity
  running : List TaskId
  broadcasts : List (Broadcast Fingerprint Detail)
  rebuilds : List (Rebuild Detail)

def resolveBatchSource (pendingSources : Finset Source) : Source :=
  if .worker ∈ pendingSources then .worker
  else if .webui ∈ pendingSources then .webui
  else .filesystem

variable {Snapshot Fingerprint Detail : Type}

namespace Channel

def opened : Channel Snapshot Fingerprint Detail :=
  { snapshot := none
    fingerprint := none
    lock := .free
    pendingSources := ∅
    inflightBatchIdentities := 0
    running := []
    broadcasts := []
    rebuilds := [] }

def broadcastChanges (channel : Channel Snapshot Fingerprint Detail)
    (fingerprint : Fingerprint) (source : Source)
    (changes : List (Change Detail)) : Channel Snapshot Fingerprint Detail :=
  { channel with
    broadcasts := channel.broadcasts ++
      [{ fingerprint := fingerprint, source := source, changes := changes }] }

variable (comparison : Comparison Snapshot Fingerprint Detail)

variable (channel : Channel Snapshot Fingerprint Detail)

/-- The new baseline, with the record of its differences. -/
def rebase (snapshot : Snapshot) : Channel Snapshot Fingerprint Detail :=
  { channel with
    snapshot := some snapshot
    fingerprint := some (comparison.fingerprint snapshot)
    rebuilds := match channel.snapshot with
      | none => channel.rebuilds
      | some previous => channel.rebuilds ++
          [{ changes := comparison.diffSnapshots previous snapshot
             since := channel.broadcasts.length }] }

def sweepUncoveredChanges (previous : Option Snapshot) (snapshot : Snapshot)
    (covered : Multiset Identity) : List (Change Detail) :=
  match previous with
  | none => []
  | some previous =>
    (comparison.diffSnapshots previous snapshot).filter (fun change =>
      changeIdentity change ∉ covered)

variable (task : TaskId) (batch : Batch Detail)

def applyEmittedBatch : Option (Channel Snapshot Fingerprint Detail) :=
  if batch.changes = [] ∨ task ∈ channel.running then none
  else
    some { channel with
      inflightBatchIdentities :=
        channel.inflightBatchIdentities + batch.identities
      running := channel.running ++ [task] }

/-- The end of a batch: its identities are taken back and the lock is
released. -/
def finish : Channel Snapshot Fingerprint Detail :=
  { channel with
    lock := .free
    inflightBatchIdentities :=
      channel.inflightBatchIdentities - batch.identities
    running := channel.running.erase task }

/-- What was swept is broadcast under its own source. -/
def broadcastSwept (fingerprint : Fingerprint) (source : Source)
    (swept : List (Change Detail)) : Channel Snapshot Fingerprint Detail :=
  if swept.isEmpty then channel
  else channel.broadcastChanges fingerprint source swept

/-- `_async_rebuild_and_broadcast` once it has read a snapshot. -/
def settleBatch (coveredSources : Finset Source) (snapshot : Snapshot) :
    Channel Snapshot Fingerprint Detail :=
  (((channel.rebase comparison snapshot).broadcastChanges
      (comparison.fingerprint snapshot) batch.source
      batch.changes).broadcastSwept (comparison.fingerprint snapshot)
        (resolveBatchSource coveredSources)
        (sweepUncoveredChanges comparison channel.snapshot snapshot
          channel.inflightBatchIdentities)).finish task batch

/-- `_async_rebuild_and_broadcast` when the reading has failed. -/
def failBatch (coveredSources : Finset Source) : Channel Snapshot Fingerprint Detail :=
  { channel with
    pendingSources := channel.pendingSources ∪ coveredSources }.finish task batch

def applyScanResult [DecidableEq Fingerprint] (comparison : Comparison Snapshot Fingerprint Detail)
    (channel : Channel Snapshot Fingerprint Detail) (snapshot : Snapshot) :
    Channel Snapshot Fingerprint Detail :=
  match channel.snapshot with
  | none => { channel.rebase comparison snapshot with pendingSources := ∅ }
  | some previous =>
    if some (comparison.fingerprint snapshot) = channel.fingerprint then
      { channel with pendingSources := ∅ }
    else
      ({ channel.rebase comparison snapshot with
          pendingSources := ∅ }).broadcastSwept
        (comparison.fingerprint snapshot) (resolveBatchSource channel.pendingSources)
        (comparison.diffSnapshots previous snapshot)

end Channel

inductive ChannelEvent (Snapshot : Type) where
  | hint (source : Source)
  | emit (task : TaskId)
  | startScan
  | startBatch (task : TaskId)
  | settle (snapshot : Snapshot)
  | fail

open Channel

/-- A step of the channel; `settle` and `fail` end the rebuild that holds the
lock. -/
def next [DecidableEq Fingerprint] (comparison : Comparison Snapshot Fingerprint Detail)
    (batch : TaskId → Batch Detail) (channel : Channel Snapshot Fingerprint Detail) :
    ChannelEvent Snapshot → Option (Channel Snapshot Fingerprint Detail)
  | .hint source =>
    some { channel with
      pendingSources := insert source channel.pendingSources }
  | .emit task => channel.applyEmittedBatch task (batch task)
  | .startScan =>
    match channel.lock with
    | .free => some { channel with lock := .scanning }
    | _ => none
  | .startBatch task =>
    match channel.lock with
    | .free =>
      if task ∈ channel.running then
        some { channel with
          lock := .rebuilding task channel.pendingSources
          pendingSources := ∅ }
      else none
    | _ => none
  | .settle snapshot =>
    match channel.lock with
    | .free => none
    | .scanning => some
        { channel.applyScanResult comparison snapshot with lock := .free }
    | .rebuilding task coveredSources => some
        (channel.settleBatch comparison task (batch task) coveredSources snapshot)
  | .fail =>
    match channel.lock with
    | .free => none
    | .scanning => some { channel with lock := .free }
    | .rebuilding task coveredSources =>
      some (channel.failBatch task (batch task) coveredSources)

/-- All interleavings of hints, batches and scans on one channel. -/
def channelSystem [DecidableEq Fingerprint] (comparison : Comparison Snapshot Fingerprint Detail)
    (batch : TaskId → Batch Detail) :
    TransitionSystem (Channel Snapshot Fingerprint Detail) (ChannelEvent Snapshot) :=
  .ofFunction Channel.opened (next comparison batch)

end MatrixSpooll.ProjectEvents
