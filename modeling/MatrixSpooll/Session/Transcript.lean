import MatrixSpooll.Library.Json
import MatrixSpooll.Session.Repository

/-!
# Transcript rows

The store that keeps the transcripts of the sessions.  A row is named by the
project key, the session, the subpath and a sequence number; the index on the
identifier of an entry makes a second row with the same identifier vanish.
The rows of a session go with the row of the session.
-/

namespace MatrixSpooll.Session

open Library List

abbrev Entry := List (String × Json)

structure EntryKey where
  projectKey : String
  sessionId : String
  subpath : String
  deriving DecidableEq

structure EntryRow where
  key : EntryKey
  seq : Nat
  uuid : Option String
  payload : Entry

def entryUuid (entry : Entry) : Option String :=
  (Json.get entry "uuid").nonemptyStr?

def entryType (entry : Entry) : String :=
  ((Json.get entry "type").asStr?).getD ""

/-- Two identifiers that the partial unique index keeps apart. -/
def Collide (first second : Option String) : Prop :=
  first.isSome ∧ first = second

instance (first second : Option String) : Decidable (Collide first second) :=
  inferInstanceAs (Decidable (_ ∧ _))

theorem Collide.symm {first second : Option String}
    (collide : Collide first second) : Collide second first := by
  obtain ⟨isSome, same⟩ := collide
  subst same
  exact ⟨isSome, rfl⟩

def EntryRow.Conflicts (first second : EntryRow) : Prop :=
  first.key = second.key ∧ Collide first.uuid second.uuid

instance (first second : EntryRow) : Decidable (first.Conflicts second) :=
  inferInstanceAs (Decidable (_ ∧ _))

/-- Rows whose identifier column is read from the entry and which the index
keeps apart. -/
structure EntryTable where
  rows : List EntryRow
  uuidColumn : ∀ row ∈ rows, row.uuid = entryUuid row.payload
  uuidUnique : rows.Pairwise (fun first second => ¬ first.Conflicts second)

namespace EntryTable

def empty : EntryTable :=
  { rows := []
    uuidColumn := by simp
    uuidUnique := Pairwise.nil }

def newRow (key : EntryKey) (seq : Nat) (entry : Entry) : EntryRow :=
  { key := key
    seq := seq
    uuid := entryUuid entry
    payload := entry }

variable (table : EntryTable)

/-- One row of `INSERT … ON CONFLICT (uuid) DO NOTHING`. -/
def insert (key : EntryKey) (seq : Nat) (entry : Entry) : EntryTable :=
  if taken : ∃ row ∈ table.rows, row.Conflicts (newRow key seq entry) then
    table
  else
    { rows := table.rows ++ [newRow key seq entry]
      uuidColumn := forall_mem_append.mpr
        ⟨table.uuidColumn, forall_mem_singleton.mpr rfl⟩
      uuidUnique := by
        apply pairwise_append.mpr
        refine ⟨table.uuidUnique, pairwise_singleton _ _, ?_⟩
        intro row stored added isAdded conflict
        rw [mem_singleton] at isAdded
        subst isAdded
        exact taken ⟨row, stored, conflict⟩ }

/-- The rows of one batch, numbered from `seq`. -/
def insertAll (table : EntryTable) (key : EntryKey) (seq : Nat) : List Entry → EntryTable
  | [] => table
  | entry :: rest => (table.insert key seq entry).insertAll key (seq + 1) rest

def retain (keep : EntryRow → Bool) : EntryTable :=
  { rows := table.rows.filter keep
    uuidColumn := by
      intro row member
      exact table.uuidColumn row (mem_of_mem_filter member)
    uuidUnique := table.uuidUnique.sublist filter_sublist }

/-- `coalesce(max(seq), -1) + 1` over the rows of a key. -/
def nextSeq (key : EntryKey) : Nat :=
  ((table.rows.filter (fun row => row.key = key)).map
    (fun row => row.seq + 1)).foldr max 0

/-- The entries of a key in the order of their numbers. -/
def payloads (key : EntryKey) : List Entry :=
  ((table.rows.filter (fun row => row.key = key)).insertionSort
    (fun first second => first.seq ≤ second.seq)).map EntryRow.payload

/-- The subpaths of a session, each once. -/
def subpaths (projectKey sessionId : String) : List String :=
  ((table.rows.filter (fun row => row.key.projectKey = projectKey &&
      row.key.sessionId = sessionId && row.key.subpath ≠ "")).map
    (fun row => row.key.subpath)).dedup

/-! ## Appending to a key that has no rows -/

/-- No two of the entries have the same identifier. -/
def DistinctUuids (uuids : List (Option String)) : Prop :=
  uuids.Pairwise (fun first second => ¬ Collide first second)

def numbered (key : EntryKey) (seq : Nat) : List Entry → List EntryRow
  | [] => []
  | entry :: rest => newRow key seq entry :: numbered key (seq + 1) rest

variable {key : EntryKey} {seq : Nat} {entries : List Entry}

theorem numbered_key
    {row : EntryRow} (member : row ∈ numbered key seq entries) :
    row.key = key ∧ seq ≤ row.seq := by
  induction entries generalizing seq with
  | nil => cases member
  | cons entry rest induction =>
    rcases mem_cons.mp member with isHead | inRest
    · subst isHead
      exact ⟨rfl, Nat.le_refl seq⟩
    · obtain ⟨sameKey, later⟩ := induction inRest
      exact ⟨sameKey, by omega⟩

theorem numbered_sorted (key : EntryKey) (seq : Nat) (entries : List Entry) :
    (numbered key seq entries).Pairwise
      (fun first second => first.seq ≤ second.seq) := by
  induction entries generalizing seq with
  | nil => exact Pairwise.nil
  | cons entry rest induction =>
    refine Pairwise.cons ?_ (induction (seq + 1))
    intro row member
    have later := (numbered_key member).2
    show seq ≤ row.seq
    omega

theorem numbered_payload (key : EntryKey) (seq : Nat) (entries : List Entry) :
    (numbered key seq entries).map EntryRow.payload = entries := by
  induction entries generalizing seq with
  | nil => rfl
  | cons entry rest induction =>
    rw [numbered, map_cons, induction]
    rfl

variable {table : EntryTable}

theorem insertAll_rows
    (clear : ∀ row ∈ table.rows, row.key = key → ∀ entry ∈ entries,
      ¬ Collide row.uuid (entryUuid entry))
    (distinct : DistinctUuids (entries.map entryUuid)) :
    (table.insertAll key seq entries).rows = table.rows ++ numbered key seq entries := by
  induction entries generalizing table seq with
  | nil => simp [insertAll, numbered]
  | cons entry rest induction =>
    obtain ⟨apart, distinctRest⟩ := pairwise_cons.mp distinct
    have stored : (table.insert key seq entry).rows = table.rows ++ [newRow key seq entry] := by
      unfold insert
      split
      · next taken =>
          obtain ⟨row, member, sameKey, collide⟩ := taken
          exact absurd collide
            (clear row member sameKey entry mem_cons_self)
      · rfl
    have clearRest : ∀ row ∈ (table.insert key seq entry).rows,
        row.key = key → ∀ later ∈ rest,
        ¬ Collide row.uuid (entryUuid later) := by
      intro row member sameKey later inRest
      rw [stored] at member
      rcases mem_append.mp member with old | new
      · exact clear row old sameKey later (mem_cons_of_mem _ inRest)
      · rw [mem_singleton] at new
        subst new
        exact apart _ (mem_map.mpr ⟨later, inRest, rfl⟩)
    rw [insertAll, induction clearRest distinctRest, stored, numbered,
      append_assoc, singleton_append]

/-- No row is stored under the key. -/
def Vacant (table : EntryTable) (key : EntryKey) : Prop :=
  ∀ row ∈ table.rows, row.key ≠ key

theorem Vacant.filter_key (vacant : table.Vacant key) :
    table.rows.filter (fun row => row.key = key) = [] := by
  apply filter_eq_nil_iff.mpr
  intro row member
  simpa using vacant row member

theorem payloads_insertAll (vacant : table.Vacant key)
    (distinct : DistinctUuids (entries.map entryUuid)) (seq : Nat) :
    (table.insertAll key seq entries).payloads key = entries := by
  have own : (table.insertAll key seq entries).rows.filter
      (fun row => row.key = key) = numbered key seq entries := by
    rw [insertAll_rows (fun row member sameKey =>
        absurd sameKey (vacant row member)) distinct, filter_append,
      vacant.filter_key, nil_append, filter_eq_self]
    intro row member
    exact decide_eq_true (numbered_key member).1
  unfold payloads
  rw [own, (numbered_sorted key seq entries).insertionSort_eq,
    numbered_payload]

/-- An append leaves alone what is selected elsewhere, whatever it stores. -/
theorem filter_insertAll {keep : EntryRow → Bool}
    (elsewhere : ∀ row, row.key = key → keep row = false) (seq : Nat)
    (entries : List Entry) :
    (table.insertAll key seq entries).rows.filter keep = table.rows.filter keep := by
  induction entries generalizing table seq with
  | nil => rfl
  | cons entry rest induction =>
    rw [insertAll, induction]
    unfold insert
    split
    · rfl
    · have dropped : keep (newRow key seq entry) = false :=
        elsewhere _ rfl
      rw [filter_append, filter_cons_of_neg (by simp [dropped]),
        filter_nil, append_nil]

variable {other : EntryKey}

theorem key_elsewhere (different : other ≠ key)
    (row : EntryRow) (own : row.key = key) :
    decide (row.key = other) = false := by
  rw [own]
  exact decide_eq_false (Ne.symm different)

theorem payloads_insertAll_other
    (different : other ≠ key) (seq : Nat) (entries : List Entry) :
    (table.insertAll key seq entries).payloads other = table.payloads other := by
  unfold payloads
  rw [filter_insertAll (key_elsewhere different)]

theorem mem_insertAll_key {row : EntryRow}
    (member : row ∈ (table.insertAll key seq entries).rows) :
    row ∈ table.rows ∨ row.key = key := by
  by_cases own : row.key = key
  · exact .inr own
  · have kept : row ∈ (table.insertAll key seq entries).rows.filter
        (fun stored => stored.key = row.key) :=
      mem_filter.mpr ⟨member, decide_eq_true rfl⟩
    rw [filter_insertAll (key_elsewhere own)] at kept
    exact .inl (mem_of_mem_filter kept)

theorem vacant_insertAll (different : other ≠ key) (seq : Nat)
    (entries : List Entry) (vacant : table.Vacant other) :
    (table.insertAll key seq entries).Vacant other := by
  intro row member isOther
  rcases mem_insertAll_key member with stored | own
  · exact vacant row stored isOther
  · exact different (isOther.symm.trans own)

theorem payloads_vacant
    (vacant : table.Vacant key) : table.payloads key = [] := by
  unfold payloads
  rw [vacant.filter_key]
  rfl

theorem payloads_distinct (table : EntryTable) (key : EntryKey) :
    DistinctUuids ((table.payloads key).map entryUuid) := by
  have ordered : ((table.rows.filter (fun row => row.key = key)).insertionSort
      (fun first second => first.seq ≤ second.seq)).Pairwise
      (fun first second => ¬ first.Conflicts second) := by
    apply (perm_insertionSort _ _).symm.pairwise
      (table.uuidUnique.sublist filter_sublist)
    intro first second apart conflict
    exact apart ⟨conflict.1.symm, conflict.2.symm⟩
  unfold payloads DistinctUuids
  rw [map_map, pairwise_map]
  apply ordered.imp_of_mem
  intro first second firstMember secondMember apart collide
  have firstRow := mem_filter.mp ((mem_insertionSort _).mp firstMember)
  have secondRow := mem_filter.mp ((mem_insertionSort _).mp secondMember)
  have firstKey : first.key = key := of_decide_eq_true firstRow.2
  have secondKey : second.key = key := of_decide_eq_true secondRow.2
  apply apart
  refine ⟨firstKey.trans secondKey.symm, ?_⟩
  rw [table.uuidColumn first firstRow.1, table.uuidColumn second secondRow.1]
  exact collide

end EntryTable

/-! ## The tables together -/

structure SummaryRow where
  projectKey : String
  sessionId : String
  data : Json

/-- The tables with their foreign keys: transcripts and summaries belong to
rows of sessions. -/
structure Database where
  sessions : SessionTable
  entries : EntryTable
  summaries : List SummaryRow
  entriesOwned : ∀ row ∈ entries.rows,
    SessionRepository.present sessions row.key.sessionId
  summariesOwned : ∀ row ∈ summaries,
    SessionRepository.present sessions row.sessionId

namespace Database

open SessionRepository

def empty : Database :=
  { sessions := KeyedTable.empty
    entries := EntryTable.empty
    summaries := []
    entriesOwned := by simp [EntryTable.empty]
    summariesOwned := by simp }

/-- The rows of sessions are exchanged for others that keep every session. -/
def withSessions (database : Database) (sessions : SessionTable)
    (kept : ∀ sessionId, present database.sessions sessionId →
      present sessions sessionId) : Database :=
  { database with
    sessions := sessions
    entriesOwned := fun row member =>
      kept row.key.sessionId (database.entriesOwned row member)
    summariesOwned := fun row member =>
      kept row.sessionId (database.summariesOwned row member) }

variable {now : Nat}

def markSuperseded (database : Database) (source target : String)
    (now : Nat) : Bool × Database :=
  ((SessionRepository.markSuperseded database.sessions source target now).1,
    database.withSessions
      (SessionRepository.markSuperseded database.sessions source target now).2
      (fun _ => present_point.mpr))

def clearSuperseded (database : Database) (source target : String)
    (now : Nat) : Database :=
  database.withSessions
    (SessionRepository.clearSuperseded database.sessions source target now).2
    (fun _ => present_point.mpr)

/-- The new row, or the refusal. -/
def create (registry : Registry) (database : Database)
    (request : NewSession) (now : Nat) : Except Refusal Database :=
  match created : SessionRepository.create registry database.sessions request
      now with
  | .error refusal => .error refusal
  | .ok sessions =>
    .ok (database.withSessions sessions (by
      intro sessionId isPresent
      obtain ⟨_, _, _, step⟩ := create_ok created
      exact step.present_iff.mpr (.inr isPresent)))

/-- The rows that name the session by a foreign key go with it. -/
def delete (database : Database) (sessionId : String) (now : Nat) : Database :=
  { sessions := (SessionRepository.delete database.sessions sessionId now).2
    entries := database.entries.retain
      (fun row => row.key.sessionId ≠ sessionId)
    summaries := database.summaries.filter
      (fun row => row.sessionId ≠ sessionId)
    entriesOwned := by
      intro row member
      obtain ⟨stored, other⟩ := mem_filter.mp member
      exact delete_present.mpr
        ⟨of_decide_eq_true other, database.entriesOwned row stored⟩
    summariesOwned := by
      intro row member
      obtain ⟨stored, other⟩ := mem_filter.mp member
      exact delete_present.mpr
        ⟨of_decide_eq_true other, database.summariesOwned row stored⟩ }

/-- `SessionStore.delete` of a key without a subpath. -/
def deleteTranscript (database : Database) (projectKey sessionId : String) : Database :=
  { database with
    entries := database.entries.retain (fun row =>
      !(row.key.projectKey = projectKey && row.key.sessionId = sessionId))
    summaries := database.summaries.filter (fun row =>
      !(row.projectKey = projectKey && row.sessionId = sessionId))
    entriesOwned := fun row member => database.entriesOwned row (mem_of_mem_filter member)
    summariesOwned := fun row member =>
      database.summariesOwned row (mem_of_mem_filter member) }

def IsSummaryOf (key : EntryKey) (row : SummaryRow) : Bool :=
  row.projectKey = key.projectKey && row.sessionId = key.sessionId

/-- `_fold_summary_locked`, with what the client library folds as a
parameter. -/
def foldSummary (fold : Option Json → List Entry → Json)
    (summaries : List SummaryRow) (key : EntryKey) (entries : List Entry) :
    List SummaryRow :=
  match summaries.find? (IsSummaryOf key) with
  | none =>
    summaries ++
      [{ projectKey := key.projectKey
         sessionId := key.sessionId
         data := fold none entries }]
  | some previous =>
    summaries.map (fun row =>
      if IsSummaryOf key row then
        { row with data := fold (some previous.data) entries }
      else row)

variable {fold : Option Json → List Entry → Json}
  {summaries : List SummaryRow} {key : EntryKey} {entries : List Entry}
  {row : SummaryRow}

theorem foldSummary_session
    (member : row ∈ foldSummary fold summaries key entries) :
    row.sessionId = key.sessionId ∨
      ∃ stored ∈ summaries, stored.sessionId = row.sessionId := by
  unfold foldSummary at member
  split at member
  · rcases mem_append.mp member with stored | added
    · exact .inr ⟨row, stored, rfl⟩
    · rw [mem_singleton] at added
      subst added
      exact .inl rfl
  · obtain ⟨stored, storedMember, image⟩ := mem_map.mp member
    refine .inr ⟨stored, storedMember, ?_⟩
    rw [← image]
    split <;> rfl

variable (fold : Option Json → List Entry → Json)

/-- Only the main transcript has a summary. -/
def summariesAfter (summaries : List SummaryRow) (key : EntryKey)
    (entries : List Entry) : List SummaryRow :=
  if key.subpath = "" then foldSummary fold summaries key entries
  else summaries

variable (database : Database)

/-- `_append_once` of a session that has a row. -/
def appendRegistered (key : EntryKey) (entries : List Entry)
    (registered : present database.sessions key.sessionId) : Database :=
  { sessions := database.sessions
    entries := database.entries.insertAll key (database.entries.nextSeq key)
      entries
    summaries := summariesAfter fold database.summaries key entries
    entriesOwned := by
      intro row member
      rcases EntryTable.mem_insertAll_key member with stored | own
      · exact database.entriesOwned row stored
      · rw [own]
        exact registered
    summariesOwned := by
      intro row member
      unfold summariesAfter at member
      split at member
      · rcases foldSummary_session member with own | kept
        · rw [own]
          exact registered
        · obtain ⟨stored, storedMember, same⟩ := kept
          rw [← same]
          exact database.summariesOwned stored storedMember
      · exact database.summariesOwned row member }

def append (key : EntryKey) (entries : List Entry) : Except Refusal Database :=
  if entries = [] then .ok database
  else
    if registered : present database.sessions key.sessionId then
      .ok (database.appendRegistered fold key entries registered)
    else
      .error (.value
        s!"agent session is not registered: {key.sessionId}")

/-- `load`; no entries read as `None`, which callers take for an empty
list. -/
def load (key : EntryKey) : List Entry :=
  database.entries.payloads key

def listSubkeys (projectKey sessionId : String) : List String :=
  database.entries.subpaths projectKey sessionId

variable {database : Database}

theorem create_spec {registry : Registry} {created : Database}
    {request : NewSession}
    (success : create registry database request now = .ok created) :
    (∃ actorId, registry.resolveActorUserId request.userId = .ok actorId ∧
      requireProject registry request.projectName = .ok () ∧
      Created database.sessions created.sessions request now actorId) ∧
      created.entries = database.entries ∧
      created.summaries = database.summaries := by
  unfold create at success
  split at success <;> cases success
  next stored => exact ⟨create_ok stored, rfl, rfl⟩

theorem create_of_fresh {registry : Registry}
    {request : NewSession} {actorId : String}
    (actor : registry.resolveActorUserId request.userId = .ok actorId)
    (project : requireProject registry request.projectName = .ok ())
    (fresh : database.sessions.find? request.sdkSessionId = none) :
    ∃ created, create registry database request now = .ok created := by
  obtain ⟨sessions, success⟩ := SessionRepository.create_of_fresh actor project fresh
  unfold create
  split
  · next refused =>
      rw [success] at refused
      cases refused
  · exact ⟨_, rfl⟩

end Database

end MatrixSpooll.Session
