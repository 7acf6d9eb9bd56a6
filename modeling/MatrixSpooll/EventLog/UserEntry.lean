import MatrixSpooll.Library.Text
import MatrixSpooll.Library.Transition
import Mathlib.Data.List.MinMax
import Mathlib.Data.List.Nodup
import Mathlib.Order.Nat

/-!
# Idempotent user entries

`EventLogStore.append` and `append_user_entry` on the rows of one session.  A
query, a commit and the return of a call are steps of their own, so every
interleaving of calls is a run.  The two unique indexes are part of the table;
a commit that breaks one fails with an `IntegrityError` from which the retry
loop has to tell which of them it was.  Rows are numbered without a gap.
-/

namespace MatrixSpooll.EventLog

open Library List Function

namespace UserEntry

/-- `_MAX_APPEND_RETRY`. -/
def maxAppendRetry : Nat := 16

/-! ## The rows of a session -/

/-- A row of `AgentSessionEventLogEntry`. -/
structure Row (Payload : Type) where
  seq : Nat
  payload : Payload
  clientKey : Option String
  deriving DecidableEq

variable {Payload Uuid : Type} {key : String}

/-- The entry of a row: `{"seq": seq, **payload}`. -/
def Row.entry (row : Row Payload) : Nat × Payload := (row.seq, row.payload)

/-- The primary key and `uq_agent_event_log_client_key`. -/
inductive Constraint where
  | sessionSeq
  | sessionClientKey

def Constraint.holds (constraint : Constraint) (rows : List (Row Payload)) : Bool :=
  match constraint with
  | .sessionSeq => (rows.map Row.seq).Nodup
  | .sessionClientKey =>
    ((rows.filter (fun row => row.clientKey.isSome)).map Row.clientKey).Nodup

structure Table (Payload : Type) where
  rows : List (Row Payload)
  unique : ∀ constraint : Constraint, constraint.holds rows = true

namespace Table

variable (table : Table Payload)

/-- `coalesce(max(seq), -1) + 1`. -/
def nextSeq : Nat :=
  (table.rows.map (fun row => row.seq + 1)).foldr max 0

def findByClientKey (key : String) : Option (Row Payload) :=
  table.rows.find? (fun row => row.clientKey = some key)

/-- The commit of new rows. -/
def insert? (new : List (Row Payload)) : Option (Table Payload) :=
  if fits : Constraint.sessionSeq.holds (table.rows ++ new) = true ∧
      Constraint.sessionClientKey.holds (table.rows ++ new) = true then
    some
      { rows := table.rows ++ new
        unique := by
          intro constraint
          cases constraint with
          | sessionSeq => exact fits.1
          | sessionClientKey => exact fits.2 }
  else none

theorem insert?_rows {table after : Table Payload} {new : List (Row Payload)}
    (committed : table.insert? new = some after) :
    after.rows = table.rows ++ new := by
  unfold insert? at committed
  split at committed <;> cases committed
  rfl

theorem mem_of_find {table : Table Payload} {row : Row Payload}
    (found : table.findByClientKey key = some row) :
    row ∈ table.rows ∧ row.clientKey = some key :=
  ⟨mem_of_find?_eq_some found, by simpa using find?_some found⟩

theorem same_of_clientKey {first second : Row Payload}
    (firstMember : first ∈ table.rows) (secondMember : second ∈ table.rows)
    (firstKey : first.clientKey = some key)
    (secondKey : second.clientKey = some key) : first = second := by
  apply inj_on_of_nodup_map (of_decide_eq_true (table.unique .sessionClientKey))
  · exact mem_filter.mpr ⟨firstMember, by rw [firstKey]; rfl⟩
  · exact mem_filter.mpr ⟨secondMember, by rw [secondKey]; rfl⟩
  · rw [firstKey, secondKey]

end Table

/-! ## Integrity errors -/

/-- What is read of an `IntegrityError`: attributes along the chain of driver
errors, the text of `exc.orig` if there is one, and its own text. -/
structure IntegrityError where
  sqlstate : Option String
  sqliteErrorname : Option String
  constraintName : Option String
  orig : Option String
  text : String

namespace IntegrityError

def contains (needle text : String) : Bool :=
  (cutAt needle.toList text.toList).isSome

def isUniqueViolation (error : IntegrityError) : Bool :=
  match error.sqlstate, error.sqliteErrorname with
  | some sqlstate, _ => sqlstate = "23505"
  | none, some errorname =>
    errorname = "SQLITE_CONSTRAINT_UNIQUE" || errorname = "SQLITE_CONSTRAINT_PRIMARYKEY"
  | none, none =>
    let message := error.orig.getD error.text
    contains "UNIQUE" message || contains "duplicate key" message

def isClientKeyViolation (error : IntegrityError) : Bool :=
  match error.constraintName.filter (· ≠ "") with
  | some constraint => contains "client_key" constraint
  | none =>
    match error.orig with
    | some message => contains "client_key" message
    | none =>
      let text := error.text.toList
      let message := ((cutAt "[SQL:".toList text).map Prod.fst).getD text
      (cutAt "client_key".toList message).isSome

end IntegrityError

/-- A driver whose errors can be told apart. -/
structure Driver where
  report : Constraint → IntegrityError
  isUnique : ∀ constraint, (report constraint).isUniqueViolation = true
  namesSeq : (report .sessionSeq).isClientKeyViolation = false
  namesKey : (report .sessionClientKey).isClientKeyViolation = true

/-- The driver of PostgreSQL names the constraint. -/
def postgres : Driver where
  report constraint :=
    { sqlstate := some "23505"
      sqliteErrorname := none
      constraintName := some (match constraint with
        | .sessionSeq => "agent_session_event_log_pkey"
        | .sessionClientKey => "uq_agent_event_log_client_key")
      orig := some ""
      text := "" }
  isUnique := fun _ => rfl
  namesSeq := by decide
  namesKey := by decide

/-- The driver of SQLite names the columns in its text. -/
def sqlite : Driver where
  report constraint :=
    { sqlstate := none
      sqliteErrorname := some (match constraint with
        | .sessionSeq => "SQLITE_CONSTRAINT_PRIMARYKEY"
        | .sessionClientKey => "SQLITE_CONSTRAINT_UNIQUE")
      constraintName := none
      orig := some ("UNIQUE constraint failed: " ++ (match constraint with
        | .sessionSeq => "agent_session_event_log.session_id, " ++
            "agent_session_event_log.seq"
        | .sessionClientKey => "agent_session_event_log.session_id, " ++
            "agent_session_event_log.client_key"))
      text := "" }
  isUnique := by
    intro constraint
    cases constraint <;> decide
  namesSeq := by decide
  namesKey := by decide

/-! ## Calls -/

/-- The calls of `append` and of `append_user_entry`. -/
inductive Request (Payload : Type) where
  | append (entries : List Payload) (clientKey : Option String)
  | appendUserEntry (entry : Payload) (clientKey : Option String)

/-- What a call returns. -/
inductive Answer (Payload : Type) where
  | appended (entries : List (Nat × Payload))
  | userEntry (entry : Nat × Payload) (created : Bool)
  deriving DecidableEq

/-- Where a call is suspended, or how it has ended. -/
inductive Phase (Payload : Type) where
  | start
  | counting (attempt : Nat)
  | counted (attempt first : Nat)
  | keyTaken (key : String)
  | committed (rows : List (Row Payload))
  | returned (answer : Answer Payload)
  | raised
  deriving DecidableEq

namespace Request

def entries : Request Payload → List Payload
  | .append entries _ => entries
  | .appendUserEntry entry _ => [entry]

def clientKey : Request Payload → Option String
  | .append _ key | .appendUserEntry _ key => key

/-- The rows of `_append_once`; only a single entry has the key. -/
def rows (request : Request Payload) (first : Nat) : List (Row Payload) :=
  request.entries.mapIdx (fun index entry =>
    { seq := first + index
      payload := entry
      clientKey := if request.entries.length = 1 then request.clientKey
        else none })

/-- The key that `append_user_entry` looks up first: `if client_key:`. -/
def lookedUpKey : Request Payload → Option String
  | .append _ _ => none
  | .appendUserEntry _ key => key.filter (· ≠ "")

/-- Up to the first count of `append`. -/
def begin (request : Request Payload) (table : Table Payload) : Phase Payload :=
  match request.lookedUpKey.bind table.findByClientKey with
  | some row => .returned (.userEntry row.entry false)
  | none =>
    if request.entries.isEmpty then .returned (.appended [])
    else .counting 0

/-- The `except IntegrityError` of `append`. -/
def afterConflict (request : Request Payload) (error : IntegrityError)
    (attempt : Nat) : Phase Payload :=
  let uniqueViolation := error.isUniqueViolation
  match request.clientKey.filter (fun _ =>
      uniqueViolation && error.isClientKeyViolation) with
  | some key => .keyTaken key
  | none =>
    if !uniqueViolation || attempt = maxAppendRetry - 1 then .raised
    else .counting (attempt + 1)

/-- What becomes of the rows that `append` gives back. -/
def answer [DecidableEq Uuid] (uuid : Payload → Uuid)
    (request : Request Payload) (rows : List (Row Payload)) :
    Answer Payload :=
  match request, rows with
  | .appendUserEntry entry _, row :: _ =>
    .userEntry row.entry (uuid row.payload = uuid entry)
  | _, _ => .appended (rows.map Row.entry)

end Request

/-- How the step of a call goes: as it should, with a commit that breaks an
index, or with another failure, which leaves no trace. -/
inductive Course where
  | proceed
  | refuse (constraint : Constraint)
  | fail

section System

variable [DecidableEq Uuid] (uuid : Payload → Uuid) (driver : Driver)

/-- One step of one call. -/
def advance (request : Request Payload) (table : Table Payload) :
    Course → Phase Payload → Option (Table Payload × Phase Payload)
  | .proceed, .start => some (table, request.begin table)
  | .proceed, .counting attempt => some (table, .counted attempt table.nextSeq)
  | .proceed, .counted _ first =>
    (table.insert? (request.rows first)).map (fun after => (after, .committed (request.rows first)))
  | .proceed, .keyTaken key =>
    match table.findByClientKey key with
    | some row => some (table, .returned (request.answer uuid [row]))
    | none => some (table, .raised)
  | .proceed, .committed rows => some (table, .returned (request.answer uuid rows))
  | .refuse constraint, .counted attempt first =>
    if constraint.holds (table.rows ++ request.rows first) then none
    else some (table, request.afterConflict (driver.report constraint) attempt)
  | .fail, .start | .fail, .counting _ | .fail, .counted _ _
  | .fail, .keyTaken _ => some (table, .raised)
  | _, _ => none

/-- The rows of the session and its calls. -/
structure Log (Payload : Type) where
  table : Table Payload
  phase : Nat → Phase Payload

/-- A step of one of the calls that make the given requests. -/
def next (requests : Nat → Request Payload) (log : Log Payload)
    (label : Nat × Course) : Option (Log Payload) :=
  (advance uuid driver (requests label.1) log.table label.2 (log.phase label.1)).map (fun result =>
      ⟨result.1, update log.phase label.1 result.2⟩)

/-- The calls start on any rows. -/
def system (requests : Nat → Request Payload) (table : Table Payload) :
    TransitionSystem (Log Payload) (Nat × Course) :=
  .ofFunction ⟨table, fun _ => .start⟩ (next uuid driver requests)

end System

/-! ## What holds between the steps -/

section Invariant

variable {uuid : Payload → Uuid} {driver : Driver}
  {request : Request Payload} {table after : Table Payload}
  {course : Course} {phase new : Phase Payload}

theorem Request.rows_of_key {first : Nat} {row : Row Payload}
    (member : row ∈ request.rows first) (isKey : row.clientKey = some key) :
    request.entries = [row.payload] ∧ request.clientKey = some key ∧
      request.rows first = [row] := by
  unfold rows at member ⊢
  by_cases single : request.entries.length = 1
  · obtain ⟨entry, isEntry⟩ := length_eq_one_iff.mp single
    simp only [isEntry, mapIdx_cons, mapIdx_nil, mem_singleton] at member ⊢
    subst member
    exact ⟨rfl, isKey, rfl⟩
  · obtain ⟨index, inside, isRow⟩ := mem_mapIdx.mp member
    subst isRow
    simp [single] at isKey

/-- What a call that has come this far rests on. -/
def Known (uuid : Payload → Uuid) (request : Request Payload)
    (table : Table Payload) : Phase Payload → Prop
  | .keyTaken key => request.clientKey = some key
  | .committed rows => ∃ first, rows = request.rows first ∧ rows ⊆ table.rows
  | .returned (.userEntry entry created) => ∃ row ∈ table.rows,
      row.clientKey = request.clientKey ∧ row.entry = entry ∧ (created = true → ∃ own,
          request.entries = [own] ∧ uuid row.payload = uuid own)
  | _ => True

theorem Known.mono (known : Known uuid request table phase)
    (grows : table.rows ⊆ after.rows) : Known uuid request after phase := by
  unfold Known at known ⊢
  split at known
  · exact known
  · obtain ⟨first, isRows, stored⟩ := known
    exact ⟨first, isRows, Subset.trans stored grows⟩
  · obtain ⟨row, member, rest⟩ := known
    exact ⟨row, grows member, rest⟩
  · trivial

theorem known_begin : Known uuid request table (request.begin table) := by
  unfold Request.begin
  split
  · next row found =>
      obtain ⟨key, looked, isRow⟩ := Option.bind_eq_some_iff.mp found
      obtain ⟨member, isKey⟩ := Table.mem_of_find isRow
      refine ⟨row, member, ?_, rfl, nofun⟩
      cases request with
      | append => cases looked
      | appendUserEntry entry own =>
        rw [isKey]
        exact (Option.filter_eq_some_iff.mp looked).1.symm
  · split <;> trivial

theorem known_afterConflict (error : IntegrityError) (attempt : Nat) :
    Known uuid request table (request.afterConflict error attempt) := by
  unfold Request.afterConflict
  dsimp only
  split
  · next key found => exact (Option.filter_eq_some_iff.mp found).1
  · split <;> trivial

variable [DecidableEq Uuid]

theorem known_answer {row : Row Payload} (member : row ∈ table.rows)
    (sameKey : row.clientKey = request.clientKey) :
    Known uuid request table (.returned (request.answer uuid [row])) := by
  cases request with
  | append entries key => trivial
  | appendUserEntry entry key =>
    refine ⟨row, member, sameKey, rfl, ?_⟩
    intro created
    exact ⟨entry, rfl, of_decide_eq_true created⟩

/-- A step keeps the rows, and what it counts is the next number, or it
commits the rows of the call from the number that the call has counted. -/
theorem advance_cases (step : advance uuid driver request table course phase = some (after, new)) :
    (after = table ∧ (Known uuid request table phase → Known uuid request table new) ∧
      ∀ attempt first, new = .counted attempt first → first = table.nextSeq) ∨
    ∃ attempt first, phase = .counted attempt first ∧
      table.insert? (request.rows first) = some after ∧ new = .committed (request.rows first) := by
  unfold advance at step
  split at step
  case h_1 =>
    cases step
    refine .inl ⟨rfl, fun _ => known_begin, ?_⟩
    unfold Request.begin
    repeat' split
    all_goals nofun
  case h_2 =>
    cases step
    refine .inl ⟨rfl, fun _ => trivial, ?_⟩
    rintro _ _ ⟨⟩
    rfl
  case h_3 attempt first =>
    obtain ⟨_, committed, same⟩ := Option.map_eq_some_iff.mp step
    cases same
    exact .inr ⟨attempt, first, rfl, committed, rfl⟩
  case h_4 =>
    split at step <;> cases step
    · next found =>
        obtain ⟨member, isKey⟩ := Table.mem_of_find found
        exact .inl ⟨rfl, fun known => known_answer member (isKey.trans known.symm), nofun⟩
    · exact .inl ⟨rfl, fun _ => trivial, nofun⟩
  case h_5 =>
    cases step
    refine .inl ⟨rfl, ?_, nofun⟩
    rintro ⟨first, rfl, stored⟩
    cases request with
    | append => trivial
    | appendUserEntry => exact known_answer (stored mem_cons_self) rfl
  case h_6 =>
    split at step <;> cases step
    refine .inl ⟨rfl, fun _ => known_afterConflict _ _, ?_⟩
    unfold Request.afterConflict
    dsimp only
    repeat' split
    all_goals nofun
  case h_7 | h_8 | h_9 | h_10 =>
    cases step
    exact .inl ⟨rfl, fun _ => trivial, nofun⟩
  case h_11 => cases step

variable {requests : Nat → Request Payload}

/-- A row with the key was written by a call of `append_user_entry`, which
reports it as created. -/
structure Sound (uuid : Payload → Uuid) (requests : Nat → Request Payload)
    (key : String) (log : Log Payload) : Prop where
  known : ∀ call, Known uuid (requests call) log.table (log.phase call)
  authored : ∀ row ∈ log.table.rows, row.clientKey = some key →
    ∃ call, requests call = .appendUserEntry row.payload (some key) ∧
      (log.phase call = .committed [row] ∨ log.phase call = .returned (.userEntry row.entry true))

/-- No plain `append` stores the key. -/
def OnlyUserEntries (requests : Nat → Request Payload) (key : String) : Prop :=
  ∀ call entry, requests call ≠ .append [entry] (some key)

theorem sound_invariant (only : OnlyUserEntries requests key)
    (fresh : ∀ row ∈ table.rows, row.clientKey ≠ some key) :
    (system uuid driver requests table).Invariant (Sound uuid requests key) where
  initially := by
    intro log isStart
    subst isStart
    exact ⟨fun _ => trivial, fun row member isKey => absurd isKey (fresh row member)⟩
  preserved := by
    intro log label next sound step
    obtain ⟨call, course⟩ := label
    obtain ⟨⟨after, new⟩, advanced, isNext⟩ := Option.map_eq_some_iff.mp step
    subst isNext
    have spec : (after = log.table ∧ Known uuid (requests call) log.table new) ∨
        ∃ first, after.rows = log.table.rows ++ (requests call).rows first ∧
          new = .committed ((requests call).rows first) := by
      rcases advance_cases advanced with ⟨same, known, _⟩ | ⟨_, first, _, committed, isNew⟩
      · exact .inl ⟨same, known (sound.known call)⟩
      · exact .inr ⟨first, Table.insert?_rows committed, isNew⟩
    have grows : log.table.rows ⊆ after.rows := by
      rcases spec with ⟨same, _⟩ | ⟨first, added, _⟩
      · rw [same]
        exact Subset.refl _
      · rw [added]
        exact subset_append_left _ _
    constructor
    · apply (forall_update_iff log.phase fun other => Known uuid (requests other) after).mpr
      refine ⟨?_, fun other _ => (sound.known other).mono grows⟩
      rcases spec with ⟨isTable, known⟩ | ⟨first, added, isNew⟩
      · exact isTable ▸ known
      · rw [isNew]
        exact ⟨first, rfl, added ▸ subset_append_right _ _⟩
    · intro row member isKey
      by_cases old : row ∈ log.table.rows
      · -- its call goes on from the commit to the return
        obtain ⟨author, isRequest, reports⟩ := sound.authored row old isKey
        refine ⟨author, isRequest, ?_⟩
        by_cases same : author = call
        · subst same
          simp only [update_self]
          rcases reports with committed | returned
          · rw [committed, isRequest] at advanced
            cases course <;> simp [advance, Request.answer] at advanced
            exact .inr advanced.2.symm
          · rw [returned] at advanced
            cases course <;> cases advanced
        · simpa only [update_of_ne same] using reports
      · rcases spec with ⟨same, _⟩ | ⟨first, added, isNew⟩
        · exact absurd (same ▸ member) old
        · rw [added, mem_append] at member
          obtain ⟨isEntry, ownKey, isRows⟩ := Request.rows_of_key (member.resolve_left old) isKey
          refine ⟨call, ?_, .inl ?_⟩
          · cases isRequest : requests call with
            | append entries own =>
              rw [isRequest] at isEntry ownKey
              cases isEntry
              cases ownKey
              exact absurd isRequest (only call _)
            | appendUserEntry entry own =>
              rw [isRequest] at isEntry ownKey
              cases isEntry
              cases ownKey
              rfl
          · rw [isNew, isRows]
            exact update_self ..

/-- The call is one of `append_user_entry` with the key and gives the entry. -/
def Gives (requests : Nat → Request Payload) (key : String)
    (log : Log Payload) (call : Nat) (entry : Nat × Payload) (created : Bool) : Prop :=
  (∃ own, requests call = .appendUserEntry own (some key)) ∧
    log.phase call = .returned (.userEntry entry created)

omit [DecidableEq Uuid] in
theorem Sound.given {log : Log Payload} (sound : Sound uuid requests key log)
    {call : Nat} {entry : Nat × Payload} {created : Bool}
    (gives : Gives requests key log call entry created) :
    ∃ row ∈ log.table.rows, row.clientKey = some key ∧ row.entry = entry ∧
      (created = true → ∃ own, requests call = .appendUserEntry own (some key) ∧
          uuid row.payload = uuid own) := by
  obtain ⟨⟨own, isRequest⟩, returned⟩ := gives
  have known := sound.known call
  rw [returned, isRequest] at known
  obtain ⟨row, member, isKey, isEntry, creates⟩ := known
  refine ⟨row, member, isKey, isEntry, ?_⟩
  intro created
  obtain ⟨_, isOwn, same⟩ := creates created
  cases isOwn
  exact ⟨own, isRequest, same⟩

/-- The `uuid4` that `build_user_entry` gives to an entry is given to no other. -/
def DistinctUuids (uuid : Payload → Uuid) (requests : Nat → Request Payload)
    (key : String) : Prop :=
  ∀ first second entry other, requests first = .appendUserEntry entry (some key) →
    requests second = .appendUserEntry other (some key) → uuid entry = uuid other → first = second

/-- At most one row has the key, every call that returns gives its entry, at
most one reports that it created it, and exactly one does once none of them
waits to return. -/
theorem user_entry_append_idempotent (only : OnlyUserEntries requests key)
    (distinct : DistinctUuids uuid requests key)
    (fresh : ∀ row ∈ table.rows, row.clientKey ≠ some key) {log : Log Payload}
    (reachable : (system uuid driver requests table).Reachable log) :
    (∀ first ∈ log.table.rows, ∀ second ∈ log.table.rows,
        first.clientKey = some key → second.clientKey = some key →
        first = second) ∧
      (∀ call entry created, Gives requests key log call entry created →
        ∃ row ∈ log.table.rows, row.clientKey = some key ∧ row.entry = entry) ∧
      (∀ first second entry other, Gives requests key log first entry true →
        Gives requests key log second other true → first = second) ∧
      ((∀ call rows, log.phase call ≠ .committed rows) →
        (∃ call entry created, Gives requests key log call entry created) →
        ∃ call entry, Gives requests key log call entry true) := by
  have sound := (sound_invariant only fresh).reachable reachable
  refine ⟨fun _ member _ other => log.table.same_of_clientKey member other, ?_, ?_, ?_⟩
  · intro call entry created gives
    obtain ⟨row, member, isKey, isEntry, _⟩ := sound.given gives
    exact ⟨row, member, isKey, isEntry⟩
  · -- both are the call that wrote the row
    intro first second entry other firstGives secondGives
    obtain ⟨row, member, isKey, _, creates⟩ := sound.given firstGives
    obtain ⟨_, isRow, sameKey, _, createsToo⟩ := sound.given secondGives
    cases log.table.same_of_clientKey member isRow isKey sameKey
    obtain ⟨author, authored, _⟩ := sound.authored row member isKey
    obtain ⟨own, isRequest, same⟩ := creates rfl
    obtain ⟨_, isRequestToo, sameToo⟩ := createsToo rfl
    rw [← distinct author first _ _ authored isRequest same]
    exact distinct author second _ _ authored isRequestToo sameToo
  · intro settled given
    obtain ⟨call, entry, created, gives⟩ := given
    obtain ⟨row, member, isKey, _⟩ := sound.given gives
    obtain ⟨author, authored, reports⟩ := sound.authored row member isKey
    rcases reports with waiting | returned
    · exact absurd waiting (settled author _)
    · exact ⟨author, row.entry, ⟨row.payload, authored⟩, returned⟩

end Invariant

/-! ## Two calls at once -/

/-- The second call finds the key taken when it commits. -/
def race : List (Nat × Course) :=
  [(0, .proceed), (1, .proceed), (0, .proceed), (1, .proceed), (0, .proceed),
    (1, .refuse .sessionClientKey), (1, .proceed), (0, .proceed)]

def emptyTable : Table Nat :=
  { rows := []
    unique := by
      intro constraint
      cases constraint <;> rfl }

def user (call : Nat) : Request Nat := .appendUserEntry call (some "key")

theorem racing_calls_agree : ∃ log, (system id sqlite user emptyTable).Reachable log ∧
      log.phase 0 = .returned (.userEntry (0, 0) true) ∧
      log.phase 1 = .returned (.userEntry (0, 0) false) ∧
      ∀ first second entry other, Gives user "key" log first entry true →
        Gives user "key" log second other true → first = second := by
  have ran : (race.foldlM (next id sqlite user) ⟨emptyTable, fun _ => .start⟩).map
      (fun log => (log.phase 0, log.phase 1)) = some (.returned (.userEntry (0, 0) true),
        .returned (.userEntry (0, 0) false)) := by
    decide +kernel
  obtain ⟨log, reached, isPhases⟩ := Option.map_eq_some_iff.mp ran
  have reachable : (system id sqlite user emptyTable).Reachable log :=
    ⟨_, race, rfl, .of_foldlM (fun _ _ _ step => step) reached⟩
  have idempotent := user_entry_append_idempotent (fun _ _ impossible => by cases impossible)
    (fun first second entry other isFirst isSecond same => by
      cases isFirst
      cases isSecond
      exact same) (fun _ member => by cases member) reachable
  exact ⟨log, reachable, congrArg Prod.fst isPhases, congrArg Prod.snd isPhases, idempotent.2.2.1⟩

/-! ## The numbers of the rows -/

section Numbering

variable [DecidableEq Uuid] {uuid : Payload → Uuid} {driver : Driver}
  {request : Request Payload} {table after : Table Payload}

theorem Table.nextSeq_le_iff {bound : Nat} :
    table.nextSeq ≤ bound ↔ ∀ row ∈ table.rows, row.seq < bound := by
  constructor
  · intro below row member
    exact (le_max_of_le (mem_map_of_mem member) (Nat.le_refl _)).trans below
  · intro below
    refine max_le_of_forall_le (table.rows.map (fun row => row.seq + 1)) bound ?_
    intro number listed
    obtain ⟨row, member, isNumber⟩ := mem_map.mp listed
    exact isNumber ▸ below row member

/-- The rows that were added are numbered on from the next number, in the order
in which they were stored. -/
def Continues (start table : Table Payload) (added : List (Row Payload)) : Prop :=
  table.rows = start.rows ++ added ∧ added.map Row.seq = range' start.nextSeq added.length

variable {start : Table Payload} {added : List (Row Payload)}

theorem Continues.nextSeq (continues : Continues start table added) :
    start.nextSeq ≤ table.nextSeq ∧ table.nextSeq ≤ start.nextSeq + added.length := by
  obtain ⟨rows, numbers⟩ := continues
  rw [Table.nextSeq_le_iff, Table.nextSeq_le_iff, rows]
  constructor
  · intro row member
    exact Table.nextSeq_le_iff.mp (Nat.le_refl _) row (rows ▸ mem_append_left added member)
  · intro row member
    rcases mem_append.mp member with old | new
    · exact Nat.lt_add_right _ (Table.nextSeq_le_iff.mp (Nat.le_refl _) row old)
    · have listed := mem_map_of_mem (f := Row.seq) new
      rw [numbers, mem_range'_1] at listed
      exact listed.2

/-- New rows clash with a stored one unless they continue the numbers. -/
theorem Continues.insert (continues : Continues start table added) {first : Nat}
    (lower : start.nextSeq ≤ first) (upper : first ≤ start.nextSeq + added.length)
    (committed : table.insert? (request.rows first) = some after) :
    Continues start after (added ++ request.rows first) := by
  obtain ⟨rows, numbers⟩ := continues
  have stored := Table.insert?_rows committed
  have distinct := of_decide_eq_true (after.unique .sessionSeq)
  have seqs : (request.rows first).map Row.seq = range' first (request.rows first).length := by
    apply ext_getElem <;> simp [Request.rows]
  rw [stored, rows, map_append, map_append, numbers, seqs] at distinct
  refine ⟨by rw [stored, rows, append_assoc], ?_⟩
  rw [map_append, numbers, seqs, length_append, ← range'_append_1]
  rcases Nat.eq_zero_or_pos (request.rows first).length with none | some
  · rw [none]
    rfl
  · have continued : first = start.nextSeq + added.length := by
      by_contra different
      exact distinct.disjoint (mem_append_right _ (mem_range'_1.mpr ⟨lower, by omega⟩))
        (mem_range'_1.mpr ⟨Nat.le_refl first, by omega⟩)
    rw [← continued]

variable {requests : Nat → Request Payload}

/-- What a call has counted lies among the numbers given since the start. -/
def InOrder (start : Table Payload) (log : Log Payload) : Prop :=
  ∃ added, Continues start log.table added ∧ ∀ call attempt first,
    log.phase call = .counted attempt first →
      start.nextSeq ≤ first ∧ first ≤ start.nextSeq + added.length

theorem inOrder_invariant : (system uuid driver requests start).Invariant (InOrder start) where
  initially := by
    intro log isStart
    subst isStart
    exact ⟨[], ⟨(append_nil _).symm, rfl⟩, nofun⟩
  preserved := by
    intro log label next inOrder step
    obtain ⟨call, course⟩ := label
    obtain ⟨⟨after, new⟩, advanced, isNext⟩ := Option.map_eq_some_iff.mp step
    subst isNext
    obtain ⟨added, continues, counted⟩ := inOrder
    rcases advance_cases advanced with ⟨same, _, counts⟩ | ⟨_, first, isPhase, committed, isNew⟩
    · subst same
      refine ⟨added, continues, ?_⟩
      intro other attempt first isCounted
      by_cases same : other = call
      · simp only [same, update_self] at isCounted
        rw [counts attempt first isCounted]
        exact continues.nextSeq
      · simp only [update_of_ne same] at isCounted
        exact counted other attempt first isCounted
    · obtain ⟨lower, upper⟩ := counted call _ first isPhase
      refine ⟨_, continues.insert lower upper committed, ?_⟩
      intro other attempt first isCounted
      by_cases same : other = call
      · simp [same, isNew] at isCounted
      · simp only [update_of_ne same] at isCounted
        obtain ⟨above, within⟩ := counted other attempt first isCounted
        rw [length_append]
        omega

/-- Whatever calls run at once, rows are only added, and their numbers go on
from the next number without a gap, in the order in which they are stored. -/
theorem entries_numbered_without_gap {log : Log Payload}
    (reachable : (system uuid driver requests start).Reachable log) :
    ∃ added, log.table.rows = start.rows ++ added ∧
      added.map Row.seq = range' start.nextSeq added.length := by
  obtain ⟨added, continues, _⟩ := inOrder_invariant.reachable reachable
  exact ⟨added, continues⟩

end Numbering

/-- Two rows, with a gap between them. -/
def gappedTable : Table Nat :=
  { rows := [⟨0, 7, none⟩, ⟨3, 8, none⟩]
    unique := by
      intro constraint
      cases constraint <;> rfl }

/-- An append of two entries counts before a user entry commits, collides with
it and has to count again. -/
def mixed (call : Nat) : Request Nat := if call = 0 then .append [1, 2] none else user call

theorem racing_entry_numbered : ∃ log, (system id postgres mixed gappedTable).Reachable log ∧
      log.table.rows.map Row.seq = [0, 3, 4, 5, 6] ∧
      log.table.rows.map Row.payload = [7, 8, 1, 1, 2] ∧
      ∃ added, log.table.rows = gappedTable.rows ++ added ∧
        added.map Row.seq = range' 4 added.length := by
  have ran : ([(0, .proceed), (0, .proceed), (1, .proceed), (1, .proceed), (1, .proceed),
      (0, .refuse .sessionSeq), (0, .proceed), (0, .proceed)].foldlM (next id postgres mixed)
        ⟨gappedTable, fun _ => .start⟩).map (fun log =>
          (log.table.rows.map Row.seq, log.table.rows.map Row.payload)) =
      some ([0, 3, 4, 5, 6], [7, 8, 1, 1, 2]) := by
    decide +kernel
  obtain ⟨log, reached, isRows⟩ := Option.map_eq_some_iff.mp ran
  have reachable : (system id postgres mixed gappedTable).Reachable log :=
    ⟨_, _, rfl, .of_foldlM (fun _ _ _ step => step) reached⟩
  exact ⟨log, reachable, congrArg Prod.fst isRows, congrArg Prod.snd isRows,
    entries_numbered_without_gap reachable⟩

end UserEntry

end MatrixSpooll.EventLog
