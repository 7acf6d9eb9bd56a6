import MatrixSpooll.Session.Branch

/-!
# A branch is published as a whole or not at all

While the writes go on the old session points to where it did or, once the
pointer is written, to the new session; from there the clean-up brings
everything back.  The row of the new session is written before the anchor is
looked at, so that a rejected anchor leaves the row behind.
-/

namespace MatrixSpooll.Session

open Library

namespace SessionBranch

open PrefixFork Attempt SessionRepository

/-! ## Taking back what was written -/

/-- The pointer of the old session while the new one is being written. -/
def Pending (environment : Environment) (before : Database)
    (sessionId : String) (state : Database) : Prop :=
  successor state.sessions sessionId = successor before.sessions sessionId ∨
    successor before.sessions sessionId = none ∧
      successor state.sessions sessionId = some environment.newSessionId

variable {environment : Environment} {before : Database} {sessionId : String}

theorem Pending.of_sessions {first second : Database}
    (pending : Pending environment before sessionId first)
    (same : second.sessions = first.sessions) :
    Pending environment before sessionId second := by
  unfold Pending
  rw [same]
  exact pending

theorem Fresh.pointer {database : Database}
    (fresh : Fresh environment database) (sessionId : String) :
    successor database.sessions sessionId ≠ some environment.newSessionId := by
  intro points
  obtain ⟨row, found, named⟩ := Option.bind_eq_some_iff.mp points
  exact fresh.unnamed row (KeyedTable.find?_mem found) named

theorem tidy_works {call : Call} {update : Database → Database}
    {database : Database} (works : environment.fault call = .none) :
    tidy environment call update database = update database := by
  unfold tidy
  rw [works]

theorem Untouched.of_absent {after : Database}
    (noRow : after.sessions.find? environment.newSessionId = none)
    (pointer : successor after.sessions sessionId = successor before.sessions sessionId) :
    Untouched environment before sessionId after := by
  have absent : ¬ present after.sessions environment.newSessionId := by
    unfold present
    rw [noRow]
    decide
  refine ⟨noRow, ?_, ?_, pointer⟩
  · intro row member same
    exact absent (same ▸ after.entriesOwned row member)
  · intro row member same
    exact absent (same ▸ after.summariesOwned row member)

theorem delete_find? (database : Database) (gone : String) (now : Nat) :
    (database.delete gone now).sessions.find? gone = none := by
  have absent : ¬ present (database.delete gone now).sessions gone := by
    intro isPresent
    exact (delete_present.mp isPresent).1 rfl
  simpa [present] using absent

theorem discardBranch_untouched {state : Database} {projectKey : String}
    (fresh : Fresh environment before) (cleansUp : CleansUp environment)
    (different : sessionId ≠ environment.newSessionId)
    (pending : Pending environment before sessionId state) :
    Untouched environment before sessionId (discardBranch environment (some projectKey) sessionId
        environment.newSessionId state) := by
  unfold discardBranch
  rw [tidy_works cleansUp.deleteMeta]
  simp only
  rw [tidy_works cleansUp.deleteTranscript, tidy_works cleansUp.clear]
  -- The clean-up of the transcript does not touch the rows of sessions.
  have cleared : successor ((state.clearSuperseded sessionId environment.newSessionId
        (environment.clock .clear)).deleteTranscript projectKey
          environment.newSessionId).sessions sessionId =
      successor before.sessions sessionId := by
    show successor (point state.sessions
      (pointsFrom sessionId (some environment.newSessionId)) none _)
      sessionId = _
    rw [successor_pointsFrom]
    rcases pending with same | marked
    · rw [if_neg, same]
      intro condition
      exact fresh.pointer sessionId (same ▸ condition.2.2)
    · obtain ⟨wasFree, points⟩ := marked
      have isPresent : present state.sessions sessionId := by
        obtain ⟨row, found, _⟩ := Option.bind_eq_some_iff.mp points
        unfold present
        rw [found]
        rfl
      rw [if_pos ⟨rfl, isPresent, points⟩, wasFree]
  apply Untouched.of_absent (delete_find? _ _ _)
  show successor (SessionRepository.delete _ _ _).2 sessionId = _
  rw [delete_successor different, if_neg]
  · exact cleared
  · rw [cleared]
    exact fresh.pointer sessionId

/-! ## The writes -/

section Publish

variable {environment : Environment} {database : Database} {fork : Fork}

/-- The row of the new session is there, everything else as before. -/
structure RowWritten (environment : Environment) (before : Database)
    (fork : Fork) (state : Database) : Prop where
  created : ∃ actorId, Created before.sessions state.sessions
    (fork.newSession environment) (environment.clock .create) actorId
  entries : state.entries = before.entries

variable {state : Database}

theorem createRow_ensures {raised : Database → Prop} (unchanged : raised database)
    (committed : ∀ state, RowWritten environment database fork state → raised state) :
    Ensures database (createRow environment fork)
      (fun _ => RowWritten environment database fork) raised := by
  refine perform_ensures ?_ (fun _ => unchanged) (fun _ _ => committed)
  apply Ensures.commit _ unchanged
  intro value next success
  obtain ⟨⟨actorId, _, _, step⟩, entries, _⟩ := Database.create_spec (refusing_ok success)
  exact ⟨⟨actorId, step⟩, entries⟩

namespace RowWritten

variable (written : RowWritten environment database fork state)
include written

theorem pending : Pending environment database fork.sessionId state := by
  obtain ⟨actorId, created⟩ := written.created
  exact .inl (created.successor_eq fork.sessionId)

theorem present : SessionRepository.present state.sessions environment.newSessionId := by
  obtain ⟨actorId, created⟩ := written.created
  exact created.present_iff.mpr (.inl rfl)

theorem vacant (unused : database.sessions.find? environment.newSessionId = none)
    (key : EntryKey) (own : key.sessionId = environment.newSessionId) :
    state.entries.Vacant key := by
  rw [written.entries]
  intro row member same
  have registered := database.entriesOwned row member
  rw [same, own] at registered
  unfold SessionRepository.present at registered
  rw [unused] at registered
  cases registered

theorem load (key : EntryKey) : state.load key = database.load key := by
  unfold Database.load
  rw [written.entries]

end RowWritten

/-- The row and the whole copy are there, the pointer is not. -/
structure CopyWritten (environment : Environment) (before : Database)
    (fork : Fork) (state : Database) : Prop where
  created : ∃ actorId, Created before.sessions state.sessions
    (fork.newSession environment) (environment.clock .create) actorId
  copied : ∃ kept, prefixBeforeAnchor environment.repr
      (before.load ((fork.copyRequest environment).source ""))
      fork.anchorUuid = .ok kept ∧
    ∀ subpath, state.load ((fork.copyRequest environment).target subpath) =
      copyOf environment (fork.copyRequest environment) kept before subpath
  elsewhere : ∀ key, key.sessionId = environment.newSessionId →
    key.projectKey ≠ fork.projectKey → state.load key = []

theorem markOrigin_ensures (different : fork.sessionId ≠ environment.newSessionId)
    (written : CopyWritten environment database fork state) :
    Ensures state (markOrigin environment fork) (fun marked next =>
        Pending environment database fork.sessionId next ∧
          (marked = true → Published environment database fork next))
      (Pending environment database fork.sessionId) := by
  obtain ⟨actorId, created⟩ := written.created
  have unchanged : Pending environment database fork.sessionId state :=
    .inl (created.successor_eq fork.sessionId)
  refine perform_ensures ?_ (fun _ => unchanged) (fun _ _ _ after => after.1)
  apply Ensures.commit _ unchanged
  intro marked next success
  cases success
  have pointed : successor (point state.sessions
      (pointsFrom fork.sessionId none) (some environment.newSessionId)
      (environment.clock .mark)) fork.sessionId = _ :=
    successor_pointsFrom _ _ _ _ _ _
  constructor
  · show successor (point _ _ _ _) fork.sessionId = _ ∨ _ ∧
      successor (point _ _ _ _) fork.sessionId = _
    rw [pointed]
    split
    · next condition =>
        rw [created.successor_eq] at condition
        exact .inr ⟨condition.2.2, rfl⟩
    · exact unchanged
  · intro isMarked
    obtain ⟨isPresent, free⟩ := marked_iff.mp isMarked
    refine ⟨?_, written.copied, written.elsewhere, ?_⟩
    · refine ⟨newRow (fork.newSession environment) actorId
        (environment.clock .create), ?_, rfl, rfl, rfl, rfl⟩
      have found : state.sessions.find? environment.newSessionId = _ :=
        created.find? environment.newSessionId
      rw [if_pos (show (fork.newSession environment).sdkSessionId =
        environment.newSessionId from rfl)] at found
      show (point _ _ _ _).find? _ = _
      rw [find?_point, found, Option.map_some, if_neg]
      intro guarded
      simp only [pointsFrom, Bool.and_eq_true, decide_eq_true_eq] at guarded
      exact different guarded.1.symm
    · show successor (point _ _ _ _) fork.sessionId = _
      rw [pointed, if_pos ⟨rfl, isPresent, free⟩]

theorem publish_ensures (fresh : Fresh environment database)
    (different : fork.sessionId ≠ environment.newSessionId) :
    Ensures database (publish environment fork) (fun _ => Published environment database fork)
      (Pending environment database fork.sessionId) := by
  apply Ensures.seq (createRow_ensures (.inl rfl) (fun _ written => written.pending))
  intro _ state written
  apply Ensures.bind (copySessionPrefix_ensures written.present different
    (written.vacant fresh.unused))
  · intro final stopped
    exact written.pending.of_sessions stopped.1
  intro result copy copied
  obtain ⟨kept, sliced, copied, _⟩ := copied
  rw [written.load] at sliced
  have written : CopyWritten environment database fork copy := by
    refine ⟨?_, ⟨kept, sliced, ?_⟩, copied.elsewhere⟩
    · rw [copied.sessions]
      exact written.created
    · intro subpath
      rw [copied.content subpath]
      unfold copyOf
      rw [written.load]
  apply Ensures.seq (markOrigin_ensures different written)
  intro marked state after
  apply Ensures.demand
  · intro _
    exact after.1
  · intro isMarked
    exact Ensures.pure (after.2 isMarked)

/-! ## The exception of the anchor -/

def IsInvalidAnchor (failure : BranchFailure) : Prop :=
  ∃ text, failure = .invalidAnchor text

theorem outage_valid : ¬ IsInvalidAnchor .outage := by
  intro invalid
  obtain ⟨_, same⟩ := invalid
  cases same

variable {call : Call}

theorem refusing_spares (write : Database → Except Refusal Database) :
    Spares (environment.perform call (Attempt.commit (refusing write)))
      IsInvalidAnchor := by
  apply perform_spares (Spares.commit _) outage_valid
  intro start failure refused invalid
  obtain ⟨refusal, rfl⟩ := refusing_error refused
  obtain ⟨text, same⟩ := invalid
  cases same

theorem loadFrom_spares {key : EntryKey} : Spares (loadFrom environment call key) IsInvalidAnchor :=
  perform_spares (Spares.read _) outage_valid

variable {request : CopyRequest}

theorem copySubagent_spares {wanted : List String} (result : PrefixCopyResult) (subpath : String) :
    Spares (copySubagent environment request wanted result subpath)
      IsInvalidAnchor := by
  unfold copySubagent
  split
  · apply Spares.bind loadFrom_spares
    intro entries
    split
    · exact Spares.pure _
    · exact Spares.bind (refusing_spares _) (fun _ => Spares.pure _)
  · exact Spares.pure _

theorem copyKept_spares {kept : List Entry} :
    Spares (copyKept environment request kept) IsInvalidAnchor := by
  unfold copyKept
  split
  · apply Spares.bind (refusing_spares _)
    intro _
    unfold copySubagents
    split
    · exact Spares.pure _
    · apply Spares.bind (perform_spares (Spares.read _) outage_valid)
      intro subpaths
      exact Spares.foldlM copySubagent_spares subpaths _
  · exact Spares.pure _

theorem markOrigin_spares : Spares (markOrigin environment fork) IsInvalidAnchor := by
  apply perform_spares (Spares.commit _) outage_valid
  intro start failure refused
  cases refused

theorem requireMarked_spares (marked : Bool) :
    Spares (requireMarked fork marked) IsInvalidAnchor := by
  intro start failure final ran invalid
  obtain ⟨text, rfl⟩ := invalid
  unfold requireMarked demand at ran
  split at ran <;> cases ran

variable {final : Database}

theorem publish_invalidAnchor {failure : BranchFailure}
    (ran : publish environment fork database = (.error failure, final))
    (invalid : IsInvalidAnchor failure) :
    Rejects environment database fork := by
  rcases bind_raised ran with early | later
  · exact absurd invalid (refusing_spares _ _ _ _ early)
  obtain ⟨_, state, wrote, rest⟩ := later
  obtain ⟨creates, committed⟩ := perform_ok wrote
  obtain ⟨⟨actorId, actor, project, step⟩, entries, _⟩ :=
    Database.create_spec (refusing_ok (commit_returned committed))
  have written : RowWritten environment database fork state := ⟨⟨actorId, step⟩, entries⟩
  rcases bind_raised rest with copying | later
  · rcases bind_raised copying with loading | later
    · exact absurd invalid (loadFrom_spares _ _ _ loading)
    obtain ⟨mainEntries, loaded, ranLoad, rest⟩ := later
    obtain ⟨loads, read⟩ := perform_ok ranLoad
    cases read
    rcases bind_raised rest with slicing | later
    · refine
        { creates := creates
          actor := ⟨actorId, actor⟩
          project := project
          loads := loads
          rejected := ?_ }
      rw [← written.load]
      cases sliced : prefixBeforeAnchor environment.repr _ _ with
      | error text => exact ⟨text, rfl⟩
      | ok kept =>
        have anchor : (fork.copyRequest environment).anchorUuid = fork.anchorUuid := rfl
        simp only [sliceAt, anchor, sliced] at slicing
        cases slicing
    · obtain ⟨kept, _, _, ranCopy⟩ := later
      exact absurd invalid (copyKept_spares _ _ _ ranCopy)
  · obtain ⟨copied, _, _, rest⟩ := later
    have spares : Spares (do
        let marked ← markOrigin environment fork
        requireMarked fork marked
        pure copied) IsInvalidAnchor :=
      Spares.bind markOrigin_spares (fun marked =>
        Spares.bind (requireMarked_spares marked) (fun _ => Spares.pure _))
    exact absurd invalid (spares _ _ _ rest)

theorem publish_of_rejects (fresh : Fresh environment database)
    (rejects : Rejects environment database fork) :
    ∃ text state, publish environment fork database = (.error (.invalidAnchor text), state) ∧
      RowWritten environment database fork state := by
  obtain ⟨actorId, actor⟩ := rejects.actor
  obtain ⟨text, rejected⟩ := rejects.rejected
  obtain ⟨state, created⟩ : ∃ state, database.create environment.registry
      (fork.newSession environment) (environment.clock .create) =
      .ok state :=
    Database.create_of_fresh actor rejects.project fresh.unused
  obtain ⟨⟨_, _, _, step⟩, entries, _⟩ := Database.create_spec created
  have written : RowWritten environment database fork state := ⟨⟨_, step⟩, entries⟩
  refine ⟨text, state, ?_, written⟩
  have wrote : createRow environment fork database = (.ok (), state) := by
    unfold createRow
    rw [perform_none rejects.creates]
    exact commit_of_ok (refusing_of_ok created)
  have loaded : loadFrom environment .loadMain ((fork.copyRequest environment).source "") state =
      (.ok (database.load ((fork.copyRequest environment).source "")), state) := by
    unfold loadFrom
    rw [perform_none rejects.loads, ← written.load]
    rfl
  have sliced : sliceAt environment (fork.copyRequest environment)
      (database.load ((fork.copyRequest environment).source "")) =
      Attempt.raise (.invalidAnchor text) := by
    unfold sliceAt
    rw [show (fork.copyRequest environment).anchorUuid = fork.anchorUuid from rfl, rejected]
  have copying : copySessionPrefix environment (fork.copyRequest environment)
      state = (.error (.invalidAnchor text), state) := by
    unfold copySessionPrefix
    rw [bind_of_ok loaded, sliced]
    rfl
  unfold publish
  rw [bind_of_ok wrote, bind_of_error copying]

end Publish

/-! ## The whole call -/

section Branch

variable {environment : Environment} {database : Database}
  {sessionId entryUuid actorUserId : String}

theorem LooksUp.different {row : AgentSession} {cwd anchorUuid : String}
    (looksUp : LooksUp environment database sessionId entryUuid row cwd anchorUuid)
    (unused : database.sessions.find? environment.newSessionId = none) :
    sessionId ≠ environment.newSessionId := by
  intro same
  have found := looksUp.found
  rw [same, unused] at found
  cases found

theorem lookUp_ensures (environment : Environment) (database : Database)
    (sessionId entryUuid actorUserId : String) :
    Ensures database (lookUp environment sessionId entryUuid actorUserId)
      (fun fork state => state = database ∧ ∃ row cwd anchorUuid,
        LooksUp environment database sessionId entryUuid row cwd anchorUuid ∧
        fork = forkOf environment sessionId entryUuid actorUserId row cwd anchorUuid)
      (fun state => state = database) := by
  constructor
  · intro fork final ran
    exact lookUp_ok ran
  · intro failure final ran
    exact (lookUp_readOnly _ _ _ _).state_eq ran

section

variable (fresh : Fresh environment database)
include fresh

theorem branch_ensures (cleansUp : CleansUp environment)
    (accepts : ¬ RejectsAnchor environment database sessionId entryUuid actorUserId) :
    AllOrNothing environment database sessionId entryUuid actorUserId := by
  apply Ensures.bind (lookUp_ensures environment database sessionId entryUuid actorUserId)
  · intro state same
    subst same
    exact Untouched.of_absent fresh.unused rfl
  intro fork state found
  obtain ⟨same, row, cwd, anchorUuid, looksUp, isFork⟩ := found
  subst same isFork
  have different := looksUp.different fresh.unused
  refine Ensures.seq ((publish_ensures fresh different).orUndo_raised ?_) ?_
  · intro failure state ran pending
    cases failure with
    | invalidAnchor text =>
      exact absurd ⟨row, cwd, anchorUuid, looksUp, publish_invalidAnchor ran ⟨text, rfl⟩⟩ accepts
    | branchError _ | anchorError _ | refused _ | outage =>
      exact discardBranch_untouched fresh cleansUp different pending
  · intro copied after published
    exact Ensures.pure ⟨rfl, row, cwd, anchorUuid, looksUp, published⟩

theorem RejectsAnchor.not_allOrNothing
    (rejects : RejectsAnchor environment database sessionId entryUuid actorUserId) :
    ¬ AllOrNothing environment database sessionId entryUuid actorUserId := by
  intro holds
  obtain ⟨row, cwd, anchorUuid, looksUp, rejects⟩ := rejects
  obtain ⟨text, state, ran, written⟩ := publish_of_rejects fresh rejects
  have raised : branch environment sessionId entryUuid actorUserId database =
      (.error (.anchorError ("anchor " ++ entryUuid ++
        " is not a user message of session " ++ sessionId ++ ": " ++ text)),
        state) := by
    unfold branch
    rw [bind_of_ok (lookUp_of looksUp actorUserId)]
    apply bind_of_error
    unfold Attempt.orUndo
    rw [ran]
    rfl
  have untouched := holds.error raised
  have isPresent := written.present
  unfold present at isPresent
  rw [untouched.noRow] at isPresent
  cases isPresent

end

end Branch

/-- A branch is published as a whole or leaves nothing, unless the slicing
rejects the anchor after the row of the new session is written. -/
theorem branch_all_or_nothing_iff (environment : Environment)
    (database : Database) (sessionId entryUuid actorUserId : String)
    (fresh : Fresh environment database) (cleansUp : CleansUp environment) :
    AllOrNothing environment database sessionId entryUuid actorUserId ↔
      ¬ RejectsAnchor environment database sessionId entryUuid
        actorUserId := by
  constructor
  · intro holds rejects
    exact rejects.not_allOrNothing fresh holds
  · intro accepts
    exact branch_ensures fresh cleansUp accepts

/-! ## A project with one session -/

def quietEnvironment : Environment :=
  { fault := fun _ => .none
    clock := fun _ => 0
    nowIso := ""
    newSessionId := "new"
    arrange := id
    arranged := fun _ => List.Perm.refl _
    storeConfigured := true
    resolveProjectCwd := fun _ => some "/project"
    makeProjectKey := id
    resolveUserMessageAnchor := fun _ entryUuid _ => some entryUuid
    registry :=
      { superadmin := some "admin"
        resolveProjectId := fun _ => .ok (some "id") }
    foldSessionSummary := fun _ _ => .null
    repr := id }

def originRow : AgentSession :=
  { sdkSessionId := "origin"
    projectName := "project"
    title := ""
    status := .idle
    supersededBy := none
    forkParentSessionId := none
    forkAnchorUuid := none
    userId := "user"
    createdAt := 0
    updatedAt := 0 }

/-- A session whose only entry is a message of the user. -/
def oneSession : Database :=
  { sessions :=
      { rows := [originRow]
        keysNodup := by decide }
    entries :=
      { rows := [EntryTable.newRow
          { projectKey := "/project"
            sessionId := "origin"
            subpath := "" } 0 [("type", .str "user"), ("uuid", .str "first")]]
        uuidColumn := by simp [EntryTable.newRow]
        uuidUnique := List.pairwise_singleton _ _ }
    summaries := []
    entriesOwned := by
      intro row member
      rw [List.mem_singleton] at member
      subst member
      decide
    summariesOwned := by simp }

theorem fresh_oneSession : Fresh quietEnvironment oneSession := by
  refine ⟨rfl, ?_⟩
  intro row member
  rw [show oneSession.sessions.rows = [originRow] from rfl, List.mem_singleton] at member
  subst member
  decide

theorem quiet_cleansUp : CleansUp quietEnvironment :=
  { clear := rfl
    deleteTranscript := rfl
    deleteMeta := rfl }

theorem first_message_branch_all_or_nothing :
    Fresh quietEnvironment oneSession ∧ CleansUp quietEnvironment ∧
      (AllOrNothing quietEnvironment oneSession "origin" "first" "user" ↔
        ¬ RejectsAnchor quietEnvironment oneSession "origin" "first" "user") :=
  ⟨fresh_oneSession, quiet_cleansUp,
    branch_all_or_nothing_iff quietEnvironment oneSession "origin" "first"
      "user" fresh_oneSession quiet_cleansUp⟩

/-- An anchor that the event log knows and the transcript does not. -/
theorem unseen_anchor_rejected :
    RejectsAnchor quietEnvironment oneSession "origin" "unseen" "user" := by
  refine ⟨originRow, "/project", "unseen", ?_, ?_⟩
  · exact
      { configured := rfl
        getsMeta := rfl
        found := rfl
        available := rfl
        readsAnchor := rfl
        resolved := rfl }
  · exact
      { creates := rfl
        actor := ⟨"user", rfl⟩
        project := rfl
        loads := rfl
        rejected := ⟨_, rfl⟩ }

theorem unseen_anchor_leaves_row : ∃ environment database sessionId entryUuid actorUserId,
      Fresh environment database ∧ CleansUp environment ∧
      ¬ AllOrNothing environment database sessionId entryUuid
        actorUserId :=
  ⟨quietEnvironment, oneSession, "origin", "unseen", "user", fresh_oneSession, quiet_cleansUp,
    unseen_anchor_rejected.not_allOrNothing fresh_oneSession⟩

end SessionBranch

end MatrixSpooll.Session
