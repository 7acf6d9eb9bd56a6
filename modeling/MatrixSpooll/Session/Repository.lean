import MatrixSpooll.Library.KeyedTable
import MatrixSpooll.Library.Succession
import Mathlib.Data.List.Sort

/-!
# Session rows

The table of sessions, keyed by the identifier the client of a session gives
it.  A row that is superseded names the session that has taken its place.
-/

namespace MatrixSpooll.Session

open Library KeyedTable

inductive SessionStatus where
  | idle
  | running
  | completed
  | error
  | interrupted
  | closed
  deriving DecidableEq

structure AgentSession where
  sdkSessionId : String
  projectName : String
  title : String
  status : SessionStatus
  supersededBy : Option String
  forkParentSessionId : Option String
  forkAnchorUuid : Option String
  userId : String
  createdAt : Nat
  updatedAt : Nat
  deriving DecidableEq

abbrev SessionTable :=
  KeyedTable AgentSession String AgentSession.sdkSessionId

/-- What a repository call is refused with. -/
inductive Refusal where
  | value (text : String)
  | runtime (text : String)
  | integrity
  deriving DecidableEq

/-- The users and projects that the repository looks up: the identifier of
the superadmin, and `resolve_project_id` with the text of the `ValueError` of
an ambiguous name. -/
structure Registry where
  superadmin : Option String
  resolveProjectId : String → Except String (Option String)

def Registry.resolveActorUserId (registry : Registry) (userId : String) : Except Refusal String :=
  if userId ≠ "" ∧ userId ≠ "default" then .ok userId
  else
    match registry.superadmin with
    | some id => .ok id
    | none => .error (.runtime
        "actor user UUID is required; database superadmin bootstrap is incomplete")

namespace SessionRepository

/-- The project of a new row must be registered. -/
def requireProject (registry : Registry) (projectName : String) : Except Refusal Unit :=
  match registry.resolveProjectId projectName with
  | .error text => .error (.value text)
  | .ok none => .error (.value s!"project is not registered: {projectName}")
  | .ok (some _) => .ok ()

/-- The fields a caller gives to `create`. -/
structure NewSession where
  projectName : String
  sdkSessionId : String
  title : String
  userId : String
  forkParentSessionId : Option String
  forkAnchorUuid : Option String

def newRow (request : NewSession) (actorId : String) (now : Nat) : AgentSession :=
  { sdkSessionId := request.sdkSessionId
    projectName := request.projectName
    title := request.title
    status := .idle
    supersededBy := none
    forkParentSessionId := request.forkParentSessionId
    forkAnchorUuid := request.forkAnchorUuid
    userId := actorId
    createdAt := now
    updatedAt := now }

def insertRow (table : SessionTable) (row : AgentSession) : Except Refusal SessionTable :=
  match table.insert? row with
  | some inserted => .ok inserted
  | none => .error .integrity

def create (registry : Registry) (table : SessionTable)
    (request : NewSession) (now : Nat) : Except Refusal SessionTable := do
  let actorId ← registry.resolveActorUserId request.userId
  requireProject registry request.projectName
  insertRow table (newRow request actorId now)

def get (table : SessionTable) (sessionId : String) : Option AgentSession :=
  table.find? sessionId

/-- The filters and the page of `list`; an empty text filters nothing. -/
structure ListRequest where
  projectName : String
  actorUserId : String
  status : Option SessionStatus
  limit : Int
  offset : Int

def ListRequest.keeps (request : ListRequest) (row : AgentSession) : Bool :=
  row.supersededBy = none && (request.projectName = "" || row.projectName = request.projectName) &&
    (request.actorUserId = "" || row.userId = request.actorUserId) &&
    (request.status = none || request.status = some row.status)

variable (table : SessionTable)

/-- Newest first, without the superseded sessions. -/
def list (request : ListRequest) : List AgentSession :=
  (((table.select request.keeps).insertionSort
    (fun first second => second.updatedAt ≤ first.updatedAt)).drop
      (max 0 request.offset).toNat).take (max 1 request.limit).toNat

/-- `WHERE sdk_session_id == … AND superseded_by == …`. -/
def pointsFrom (sessionId : String) (pointer : Option String) (row : AgentSession) : Bool :=
  row.sdkSessionId = sessionId && row.supersededBy = pointer

/-- Write the pointer of the rows that meet `guard`. -/
def point (guard : AgentSession → Bool) (pointer : Option String) (now : Nat) : SessionTable :=
  table.update guard (fun row => { row with supersededBy := pointer, updatedAt := now })
    (fun _ => rfl)

def markSuperseded (sessionId supersededBy : String) (now : Nat) : Bool × SessionTable :=
  (0 < table.rowcount (pointsFrom sessionId none),
    point table (pointsFrom sessionId none) (some supersededBy) now)

def clearSuperseded (sessionId supersededBy : String) (now : Nat) : Bool × SessionTable :=
  (0 < table.rowcount (pointsFrom sessionId (some supersededBy)),
    point table (pointsFrom sessionId (some supersededBy)) none now)

/-- Which session a session points to. -/
def successor (sessionId : String) : Option String :=
  (table.find? sessionId).bind AgentSession.supersededBy

/-- What pointed to the session points to its successor before the row goes. -/
def relinked (sessionId : String) (now : Nat) : SessionTable :=
  point table (fun row => row.supersededBy = some sessionId) (successor table sessionId) now

def delete (table : SessionTable) (sessionId : String) (now : Nat) : Bool × SessionTable :=
  (0 < (relinked table sessionId now).rowcount (fun row => row.sdkSessionId = sessionId),
    (relinked table sessionId now).delete (fun row => row.sdkSessionId = sessionId))

/-! ## The pointers after each call -/

def present (sessionId : String) : Prop :=
  (table.find? sessionId).isSome = true

instance (table : SessionTable) (sessionId : String) : Decidable (present table sessionId) :=
  inferInstanceAs (Decidable ((table.find? sessionId).isSome = true))

theorem find?_point (guard : AgentSession → Bool) (pointer : Option String)
    (now : Nat) (sessionId : String) : (point table guard pointer now).find? sessionId =
      (table.find? sessionId).map (fun row =>
        if guard row then
          { row with supersededBy := pointer, updatedAt := now }
        else row) :=
  find?_update table guard _ _ sessionId

variable {table : SessionTable} {now : Nat} {sessionId : String}

theorem present_point {guard : AgentSession → Bool} {pointer : Option String} :
    present (point table guard pointer now) sessionId ↔ present table sessionId := by
  unfold present
  rw [find?_point, Option.isSome_map]

theorem successor_point (table : SessionTable) (guard : AgentSession → Bool)
    (pointer : Option String) (now : Nat) (sessionId : String) :
    successor (point table guard pointer now) sessionId = (table.find? sessionId).bind (fun row =>
        if guard row then pointer else row.supersededBy) := by
  unfold successor
  rw [find?_point]
  cases table.find? sessionId with
  | none => rfl
  | some row =>
    rw [Option.map_some, Option.bind_some, Option.bind_some]
    split <;> rfl

/-- A write that is guarded by one session and its pointer. -/
theorem successor_pointsFrom (table : SessionTable) (source : String)
    (expected pointer : Option String) (now : Nat) (sessionId : String) :
    successor (point table (pointsFrom source expected) pointer now) sessionId =
      if sessionId = source ∧ present table source ∧ successor table source = expected then pointer
      else successor table sessionId := by
  rw [successor_point]
  unfold present successor pointsFrom
  cases found : table.find? sessionId with
  | none =>
    rw [if_neg]
    · rfl
    · intro condition
      rw [← condition.1, found] at condition
      cases condition.2.1
  | some row =>
    have keyEq := find?_key found
    subst keyEq
    by_cases isSource : row.sdkSessionId = source
    · subst isSource
      simp [found]
    · simp [isSource]

theorem marked_iff {source target : String} : (markSuperseded table source target now).1 = true ↔
      present table source ∧ successor table source = none := by
  unfold markSuperseded
  rw [decide_eq_true_eq]
  constructor
  · intro counted
    obtain ⟨row, found, free⟩ := rowcount_key_pos (Nat.ne_of_gt counted)
    refine ⟨by simp [present, found], ?_⟩
    simpa [successor, found] using free
  · intro condition
    obtain ⟨isPresent, free⟩ := condition
    obtain ⟨row, found⟩ := Option.isSome_iff_exists.mp isPresent
    apply List.countP_pos_iff.mpr
    refine ⟨row, find?_mem found, ?_⟩
    simp only [successor, found, Option.bind_some] at free
    simp [pointsFrom, find?_key found, free]

theorem delete_present {gone : String} : present (delete table gone now).2 sessionId ↔
      sessionId ≠ gone ∧ present table sessionId := by
  unfold delete
  simp only
  unfold present
  rw [find?_delete]
  by_cases isGone : sessionId = gone
  · simp [isGone]
  · rw [if_neg isGone]
    constructor
    · intro isPresent
      exact ⟨isGone, present_point.mp isPresent⟩
    · intro condition
      exact present_point.mpr condition.2

theorem delete_successor {gone : String} (different : sessionId ≠ gone) :
    successor (delete table gone now).2 sessionId =
      if successor table sessionId = some gone then successor table gone
      else successor table sessionId := by
  unfold delete
  simp only
  have kept : successor ((relinked table gone now).delete
      (fun row => row.sdkSessionId = gone)) sessionId =
      successor (relinked table gone now) sessionId := by
    unfold successor
    rw [find?_delete, if_neg different]
  rw [kept]
  unfold relinked
  rw [successor_point]
  cases found : table.find? sessionId with
  | none | some row => simp [successor, found]

theorem delete_successor_gone (table : SessionTable) (gone : String)
    (now : Nat) : successor (delete table gone now).2 gone = none := by
  unfold delete successor
  simp only
  rw [find?_delete, if_pos rfl]
  rfl

theorem insertRow_ok {inserted : SessionTable} {row : AgentSession}
    (success : insertRow table row = .ok inserted) :
    table.insert? row = some inserted := by
  unfold insertRow at success
  split at success <;> cases success
  next found => exact found

/-- A row that `create` has written. -/
structure Created (table created : SessionTable) (request : NewSession)
    (now : Nat) (actorId : String) : Prop where
  inserted : table.insert? (newRow request actorId now) = some created

theorem create_ok {registry : Registry} {created : SessionTable} {request : NewSession}
    (success : create registry table request now = .ok created) :
    ∃ actorId, registry.resolveActorUserId request.userId = .ok actorId ∧
      requireProject registry request.projectName = .ok () ∧
      Created table created request now actorId := by
  unfold create at success
  cases resolved : registry.resolveActorUserId request.userId with
  | error refusal =>
    rw [resolved] at success
    cases success
  | ok actorId =>
    rw [resolved] at success
    cases required : requireProject registry request.projectName with
    | error refusal =>
      simp only [bind, Except.bind, required] at success
      cases success
    | ok _ =>
      simp only [bind, Except.bind, required] at success
      exact ⟨actorId, rfl, rfl, { inserted := insertRow_ok success }⟩

theorem create_of_fresh {registry : Registry} {request : NewSession} {actorId : String}
    (actor : registry.resolveActorUserId request.userId = .ok actorId)
    (project : requireProject registry request.projectName = .ok ())
    (fresh : table.find? request.sdkSessionId = none) :
    ∃ created, create registry table request now = .ok created := by
  have free : request.sdkSessionId ∉ table.rows.map AgentSession.sdkSessionId :=
    find?_eq_none_iff.mp fresh
  unfold create
  simp only [bind, Except.bind, actor, project]
  unfold insertRow insert?
  rw [dif_neg (by exact free)]
  exact ⟨_, rfl⟩

namespace Created

variable {table created : SessionTable} {request : NewSession} {now : Nat} {actorId : String}

section

variable (step : Created table created request now actorId)
include step

theorem find? (sessionId : String) : created.find? sessionId =
      if request.sdkSessionId = sessionId then
        some (newRow request actorId now)
      else table.find? sessionId :=
  find?_insert step.inserted sessionId

theorem fresh : table.find? request.sdkSessionId = none :=
  insert?_fresh step.inserted

theorem successor_eq (sessionId : String) :
    successor created sessionId = successor table sessionId := by
  unfold successor
  rw [step.find?]
  split
  · next same =>
      subst same
      rw [step.fresh]
      rfl
  · rfl

theorem present_iff {sessionId : String} : present created sessionId ↔
      request.sdkSessionId = sessionId ∨ present table sessionId := by
  unfold present
  rw [step.find?]
  split
  · next same => simp [same]
  · next different => simp [different]

end

end Created

end SessionRepository

end MatrixSpooll.Session
