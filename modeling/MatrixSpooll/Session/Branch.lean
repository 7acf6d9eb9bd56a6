import MatrixSpooll.Session.PrefixFork

/-!
# Branching a session

A message of a session is rewritten in a new session that starts with what was
there before the message.  The row of the new session, its transcript and the
pointer from the old session are written one after the other; when a write
raises, those made so far are taken back.  The exception of the anchor is
handled apart, as one that comes before every write.
-/

namespace MatrixSpooll.Session

open Library

namespace SessionBranch

open PrefixFork

structure BranchedSession where
  sessionId : String
  resumable : Bool
  deriving DecidableEq

variable (environment : Environment)

def tidy (call : Call) (update : Database → Database) (database : Database) : Database :=
  match environment.fault call with
  | .none => update database
  | .before => database
  | .after => update database

/-- `_discard`.  Without a project key the transcript is not looked for. -/
def discardBranch (projectKey : Option String)
    (originSessionId newSessionId : String) (database : Database) : Database :=
  tidy environment .deleteMeta (fun cleared =>
      cleared.delete newSessionId (environment.clock .deleteMeta))
    (match projectKey with
    | none => tidy environment .clear (fun state =>
      state.clearSuperseded originSessionId newSessionId (environment.clock .clear)) database
    | some key => tidy environment .deleteTranscript
        (fun cleared => cleared.deleteTranscript key newSessionId)
        (tidy environment .clear (fun state =>
          state.clearSuperseded originSessionId newSessionId (environment.clock .clear)) database))

/-- `discard`: the project key is found through the row of the new session. -/
def discard (originSessionId newSessionId : String) (database : Database) : Database :=
  if environment.storeConfigured then
    discardBranch environment (((database.sessions.find? newSessionId).bind (fun row =>
        environment.resolveProjectCwd row.projectName)).map environment.makeProjectKey)
      originSessionId newSessionId database
  else database

/-- What `branch` has looked up before it writes. -/
structure Fork where
  sessionId : String
  entryUuid : String
  actorUserId : String
  projectName : String
  projectKey : String
  anchorUuid : String

namespace Fork

def newSession (fork : Fork) (environment : Environment) : SessionRepository.NewSession :=
  { projectName := fork.projectName
    sdkSessionId := environment.newSessionId
    title := ""
    userId := fork.actorUserId
    forkParentSessionId := some fork.sessionId
    forkAnchorUuid := some fork.anchorUuid }

def copyRequest (fork : Fork) (environment : Environment) : CopyRequest :=
  { projectKey := fork.projectKey
    sessionId := fork.sessionId
    anchorUuid := fork.anchorUuid
    newSessionId := environment.newSessionId }

end Fork

variable (sessionId entryUuid : String) (fork : Fork)

def createRow : Procedure Unit :=
  environment.perform .create (Attempt.commit (refusing (fun database =>
    database.create environment.registry (fork.newSession environment)
      (environment.clock .create))))

def markOrigin : Procedure Bool :=
  environment.perform .mark (Attempt.commit (fun database =>
    .ok (database.markSuperseded fork.sessionId environment.newSessionId
      (environment.clock .mark))))

/-- The pointer is taken by another branch. -/
def requireMarked (marked : Bool) : Procedure Unit :=
  Attempt.demand (fun _ => marked) (fun _ => .branchError ("session " ++ fork.sessionId ++
      " has already been superseded by another branch"))

/-- The writes, in their order. -/
def publish : Procedure PrefixCopyResult := do
  createRow environment fork
  let copied ← copySessionPrefix environment (fork.copyRequest environment)
  let marked ← markOrigin environment fork
  requireMarked fork marked
  pure copied

/-- The two `except` clauses around the writes. -/
def withdraw : BranchFailure → Database → BranchFailure × Database
  | .invalidAnchor text, database =>
    (.anchorError ("anchor " ++ fork.entryUuid ++
      " is not a user message of session " ++ fork.sessionId ++ ": " ++
      text), database)
  | failure, database =>
    (failure, discardBranch environment (some fork.projectKey)
      fork.sessionId environment.newSessionId database)

def forkSession : Procedure BranchedSession := do
  let copied ← (publish environment fork).orUndo (withdraw environment fork)
  pure
    { sessionId := environment.newSessionId
      resumable := 0 < copied.entriesCopied }

def notFound : BranchFailure :=
  .branchError s!"session {sessionId} not found"

def unavailable (projectName sessionId : String) : BranchFailure :=
  .branchError s!"project {projectName} of session {sessionId} is unavailable"

def notAnchor (sessionId : String) : BranchFailure :=
  .anchorError s!"anchor {entryUuid} is not a user message of session {sessionId}"

/-- The anchor in the transcript of the session, or the exception. -/
def resolveAnchor (sessionId entryUuid projectCwd : String) : Procedure String := do
  let resolved ← environment.perform .resolveAnchor
    (pure (environment.resolveUserMessageAnchor sessionId entryUuid projectCwd))
  Attempt.ofOption (notAnchor entryUuid sessionId) resolved

def getMeta (sessionId : String) : Procedure AgentSession := do
  let found ← environment.perform .getMeta
    (Attempt.read (fun database => database.sessions.find? sessionId))
  Attempt.ofOption (notFound sessionId) found

def projectCwd (row : AgentSession) (sessionId : String) : Procedure String :=
  Attempt.ofOption (unavailable row.projectName sessionId)
    (environment.resolveProjectCwd row.projectName)

/-- The lookups before the writes. -/
def lookUp (actorUserId : String) : Procedure Fork := do
  Attempt.demand (fun _ => environment.storeConfigured) (fun _ =>
    .branchError ("session branching requires the DB transcript store " ++
      "(MATRIXSPOOLL_SDK_SESSION_STORE=db)"))
  let row ← getMeta environment sessionId
  let cwd ← projectCwd environment row sessionId
  let anchorUuid ← resolveAnchor environment sessionId entryUuid cwd
  pure
    { sessionId := sessionId
      entryUuid := entryUuid
      actorUserId := actorUserId
      projectName := row.projectName
      projectKey := environment.makeProjectKey cwd
      anchorUuid := anchorUuid }

def branch (actorUserId : String) : Procedure BranchedSession := do
  let fork ← lookUp environment sessionId entryUuid actorUserId
  forkSession environment fork

/-! ## What a branch promises -/

open Attempt SessionRepository

/-- The lookups of `branch` succeed with this row, directory and anchor. -/
structure LooksUp (environment : Environment) (database : Database)
    (sessionId entryUuid : String) (row : AgentSession) (cwd anchorUuid : String) : Prop where
  configured : environment.storeConfigured = true
  getsMeta : environment.fault .getMeta = .none
  found : database.sessions.find? sessionId = some row
  available : environment.resolveProjectCwd row.projectName = some cwd
  readsAnchor : environment.fault .resolveAnchor = .none
  resolved : environment.resolveUserMessageAnchor sessionId entryUuid cwd = some anchorUuid

def forkOf (sessionId entryUuid actorUserId : String) (row : AgentSession)
    (cwd anchorUuid : String) : Fork :=
  { sessionId := sessionId
    entryUuid := entryUuid
    actorUserId := actorUserId
    projectName := row.projectName
    projectKey := environment.makeProjectKey cwd
    anchorUuid := anchorUuid }

/-- The new identifier occurs nowhere in the database. -/
structure Fresh (environment : Environment) (database : Database) : Prop where
  unused : database.sessions.find? environment.newSessionId = none
  unnamed : ∀ row ∈ database.sessions.rows, row.supersededBy ≠ some environment.newSessionId

structure CleansUp (environment : Environment) : Prop where
  clear : environment.fault .clear = .none
  deleteTranscript : environment.fault .deleteTranscript = .none
  deleteMeta : environment.fault .deleteMeta = .none

/-- Nothing of the new session is there and the old one points to where it
pointed before. -/
structure Untouched (environment : Environment) (before : Database)
    (sessionId : String) (after : Database) : Prop where
  noRow : after.sessions.find? environment.newSessionId = none
  noTranscript : ∀ row ∈ after.entries.rows, row.key.sessionId ≠ environment.newSessionId
  noSummary : ∀ row ∈ after.summaries, row.sessionId ≠ environment.newSessionId
  pointer : successor after.sessions sessionId = successor before.sessions sessionId

/-- The new row is there, holds the copy up to the anchor and nothing else,
and the old session points to it. -/
structure Published (environment : Environment) (before : Database)
    (fork : Fork) (after : Database) : Prop where
  row : ∃ row, after.sessions.find? environment.newSessionId = some row ∧
    row.projectName = fork.projectName ∧
    row.forkParentSessionId = some fork.sessionId ∧
    row.forkAnchorUuid = some fork.anchorUuid ∧ row.supersededBy = none
  copied : ∃ kept, prefixBeforeAnchor environment.repr
      (before.load ((fork.copyRequest environment).source ""))
      fork.anchorUuid = .ok kept ∧
    ∀ subpath, after.load ((fork.copyRequest environment).target subpath) =
      copyOf environment (fork.copyRequest environment) kept before subpath
  elsewhere : ∀ key, key.sessionId = environment.newSessionId →
    key.projectKey ≠ fork.projectKey → after.load key = []
  pointer : successor after.sessions fork.sessionId = some environment.newSessionId

def AllOrNothing (database : Database) (sessionId entryUuid actorUserId : String) : Prop :=
  Ensures database (branch environment sessionId entryUuid actorUserId)
    (fun result after => result.sessionId = environment.newSessionId ∧ ∃ row cwd anchorUuid,
        LooksUp environment database sessionId entryUuid row cwd anchorUuid ∧
        Published environment database (forkOf environment sessionId entryUuid actorUserId row cwd
            anchorUuid) after)
    (Untouched environment database sessionId)

/-- The row of the new session is written, the transcript of the old one is
read, and its entry is no message of the user. -/
structure Rejects (environment : Environment) (database : Database) (fork : Fork) : Prop where
  creates : environment.fault .create = .none
  actor : ∃ actorId, environment.registry.resolveActorUserId fork.actorUserId = .ok actorId
  project : requireProject environment.registry fork.projectName = .ok ()
  loads : environment.fault .loadMain = .none
  rejected : ∃ text, prefixBeforeAnchor environment.repr
      (database.load ((fork.copyRequest environment).source ""))
      fork.anchorUuid = .error text

def RejectsAnchor (database : Database) (sessionId entryUuid actorUserId : String) : Prop :=
  ∃ row cwd anchorUuid, LooksUp environment database sessionId entryUuid row cwd anchorUuid ∧
    Rejects environment database
      (forkOf environment sessionId entryUuid actorUserId row cwd anchorUuid)

/-! ## The lookups -/

variable {environment : Environment} {start final : Database} {sessionId : String}

variable {entryUuid : String}

theorem found_ok {Value : Type} {call : Call} {value : Value}
    {failure : BranchFailure} (look : Database → Option Value)
    (ran : (environment.perform call (Attempt.read look) >>=
      Attempt.ofOption failure) start = (.ok value, final)) :
    final = start ∧ environment.fault call = .none ∧ look start = some value := by
  obtain ⟨found, middle, first, rest⟩ := bind_returned ran
  obtain ⟨works, given⟩ := perform_ok first
  cases given
  obtain ⟨same, isValue⟩ := ofOption_returned rest
  exact ⟨same, works, isValue⟩

theorem lookUp_ok {actorUserId : String} {fork : Fork}
    (ran : lookUp environment sessionId entryUuid actorUserId start = (.ok fork, final)) :
    final = start ∧ ∃ row cwd anchorUuid,
      LooksUp environment start sessionId entryUuid row cwd anchorUuid ∧
      fork = forkOf environment sessionId entryUuid actorUserId row cwd
        anchorUuid := by
  obtain ⟨_, first, demanded, afterDemand⟩ := bind_returned ran
  obtain ⟨row, second, gotMeta, afterMeta⟩ := bind_returned afterDemand
  obtain ⟨cwd, third, gotCwd, afterCwd⟩ := bind_returned afterMeta
  obtain ⟨anchorUuid, fourth, gotAnchor, last⟩ := bind_returned afterCwd
  obtain ⟨rfl, configured⟩ := demand_returned demanded
  obtain ⟨rfl, getsMeta, found⟩ := found_ok _ gotMeta
  obtain ⟨rfl, available⟩ := ofOption_returned gotCwd
  obtain ⟨rfl, readsAnchor, resolved⟩ := found_ok (fun _ => _) gotAnchor
  cases last
  exact ⟨rfl, row, cwd, anchorUuid,
    { configured := configured
      getsMeta := getsMeta
      found := found
      available := available
      readsAnchor := readsAnchor
      resolved := resolved }, rfl⟩

theorem lookUp_of {database : Database} {cwd anchorUuid : String} {row : AgentSession}
    (looksUp : LooksUp environment database sessionId entryUuid row cwd
      anchorUuid) (actorUserId : String) :
    lookUp environment sessionId entryUuid actorUserId database =
      (.ok (forkOf environment sessionId entryUuid actorUserId row cwd anchorUuid), database) := by
  have gotMeta : getMeta environment sessionId database = (.ok row, database) := by
    unfold getMeta
    rw [perform_none looksUp.getsMeta]
    show Attempt.ofOption _ (database.sessions.find? sessionId) database = _
    rw [looksUp.found]
    rfl
  have gotCwd : projectCwd environment row sessionId database = (.ok cwd, database) := by
    unfold projectCwd
    rw [looksUp.available]
    rfl
  have gotAnchor : resolveAnchor environment sessionId entryUuid cwd
      database = (.ok anchorUuid, database) := by
    unfold resolveAnchor
    rw [perform_none looksUp.readsAnchor, looksUp.resolved]
    rfl
  have demanded : Attempt.demand (fun _ => environment.storeConfigured)
      (fun _ => BranchFailure.branchError ("session branching requires the DB transcript store " ++
          "(MATRIXSPOOLL_SDK_SESSION_STORE=db)")) database =
      (.ok (), database) :=
    if_pos looksUp.configured
  unfold lookUp
  rw [bind_of_ok demanded, bind_of_ok gotMeta, bind_of_ok gotCwd, bind_of_ok gotAnchor]
  rfl

theorem lookUp_readOnly (environment : Environment) (sessionId entryUuid actorUserId : String) :
    ReadOnly (lookUp environment sessionId entryUuid actorUserId) := by
  apply ReadOnly.bind (ReadOnly.demand _ _)
  intro _
  apply ReadOnly.bind (ReadOnly.bind (perform_readOnly (ReadOnly.read _))
    (fun found => ReadOnly.ofOption _ found))
  intro row
  apply ReadOnly.bind (ReadOnly.ofOption _ _)
  intro cwd
  apply ReadOnly.bind (ReadOnly.bind (perform_readOnly (ReadOnly.pure _))
    (fun found => ReadOnly.ofOption _ found))
  intro anchorUuid
  exact ReadOnly.pure _

end SessionBranch

end MatrixSpooll.Session
