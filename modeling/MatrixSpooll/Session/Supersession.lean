import MatrixSpooll.Library.Transition
import MatrixSpooll.Session.BranchAtomicity

/-!
# Chains of superseded sessions

Sessions are created, branched, discarded and deleted in any order, and the
calls of a branch or of a discard may raise at any place.  After all of it the
pointers name sessions that are there, and following them ends at one that is
listed.
-/

namespace MatrixSpooll.Session

open Library

namespace Supersession

open PrefixFork Attempt SessionRepository SessionBranch KeyedTable

/-- Pointers name sessions that are there, and following them stops. -/
structure Sound (sessions : SessionTable) : Prop where
  existing : ∀ sessionId target,
    successor sessions sessionId = some target → present sessions target
  terminates : Terminates (successor sessions)

namespace Sound

variable {sessions : SessionTable}

theorem empty : Sound empty := by
  constructor
  · intro sessionId target points
    cases points
  · constructor
    intro sessionId
    constructor
    intro later points
    cases points

variable (sound : Sound sessions)
include sound

theorem create {created : SessionTable} {request : NewSession} {now : Nat}
    {actorId : String} (step : Created sessions created request now actorId) :
    Sound created := by
  have same : successor created = successor sessions := funext step.successor_eq
  constructor
  · intro sessionId target points
    rw [same] at points
    exact step.present_iff.mpr (.inr (sound.existing sessionId target points))
  · rw [same]
    exact sound.terminates

theorem mark {source target : String} (different : source ≠ target)
    (isPresent : present sessions target) (last : successor sessions target = none) (now : Nat) :
    Sound (markSuperseded sessions source target now).2 := by
  have pointers : ∀ sessionId, successor (markSuperseded sessions source target now).2 sessionId =
        if sessionId = source ∧ present sessions source ∧
          successor sessions source = none then some target
        else successor sessions sessionId :=
    successor_pointsFrom sessions source none (some target) now
  constructor
  · intro sessionId named points
    apply present_point.mpr
    rw [pointers] at points
    split at points
    · cases points
      exact isPresent
    · exact sound.existing sessionId named points
  · by_cases free : present sessions source ∧ successor sessions source = none
    · apply sound.terminates.attach
      · rw [pointers, if_pos ⟨rfl, free⟩]
      · rw [pointers, if_neg (fun condition => different condition.1.symm)]
        exact last
      · intro sessionId other
        rw [pointers, if_neg (fun condition => other condition.1)]
    · have same : successor (markSuperseded sessions source target now).2 = successor sessions := by
        funext sessionId
        rw [pointers, if_neg (fun condition => free condition.2)]
      rw [same]
      exact sound.terminates

theorem clear (source target : String) (now : Nat) :
    Sound (clearSuperseded sessions source target now).2 := by
  have pointers : ∀ sessionId named,
      successor (clearSuperseded sessions source target now).2 sessionId =
        some named → successor sessions sessionId = some named := by
    intro sessionId named points
    have pointer := successor_pointsFrom sessions source (some target) none now sessionId
    unfold clearSuperseded at points
    rw [pointer] at points
    split at points
    · cases points
    · exact points
  constructor
  · intro sessionId named points
    exact present_point.mpr (sound.existing sessionId named (pointers sessionId named points))
  · apply sound.terminates.along
    intro sessionId named points
    exact .single (pointers sessionId named points)

theorem delete (gone : String) (now : Nat) :
    Sound (SessionRepository.delete sessions gone now).2 := by
  -- What a session points to after the deletion it led to before.
  have pointers : ∀ sessionId named,
      successor (SessionRepository.delete sessions gone now).2 sessionId = some named →
      named ≠ gone ∧ present sessions named ∧ Relation.TransGen (Follows (successor sessions)) named
          sessionId := by
    intro sessionId named points
    by_cases isGone : sessionId = gone
    · rw [isGone, delete_successor_gone] at points
      cases points
    rw [delete_successor isGone] at points
    split at points
    · next pointed =>
        refine ⟨?_, sound.existing gone named points, .head points (.single pointed)⟩
        intro same
        exact sound.terminates.not_self gone (same ▸ points)
    · next elsewhere =>
        refine ⟨?_, sound.existing sessionId named points, .single points⟩
        intro same
        exact elsewhere (same ▸ points)
  constructor
  · intro sessionId named points
    obtain ⟨stays, isPresent, _⟩ := pointers sessionId named points
    exact delete_present.mpr ⟨stays, isPresent⟩
  · apply sound.terminates.along
    intro sessionId named points
    exact (pointers sessionId named points).2.2

end Sound

/-! ## Branches and discards -/

section Branch

variable {environment : Environment} {database : Database}

theorem tidy_sound {call : Call} {update : Database → Database}
    (updated : ∀ state, Sound state.sessions → Sound (update state).sessions)
    {state : Database} (sound : Sound state.sessions) :
    Sound (tidy environment call update state).sessions := by
  unfold tidy
  split
  · exact updated state sound
  · exact sound
  · exact updated state sound

theorem discardBranch_sound {projectKey : Option String}
    {origin new : String} (sound : Sound database.sessions) :
    Sound (discardBranch environment projectKey origin new database).sessions := by
  have cleared : Sound (tidy environment .clear (fun state =>
      state.clearSuperseded origin new (environment.clock .clear))
      database).sessions :=
    tidy_sound (fun state before => before.clear origin new _) sound
  unfold discardBranch
  apply tidy_sound (fun state before => before.delete new _)
  cases projectKey with
  | none => exact cleared
  | some key =>
    apply tidy_sound _ cleared
    intro state before
    exact before

variable {fork : Fork}

/-- Ready for the pointer: the new session is there and points to none. -/
structure Ready (environment : Environment) (state : Database) : Prop where
  sound : Sound state.sessions
  isPresent : present state.sessions environment.newSessionId
  last : successor state.sessions environment.newSessionId = none

variable {start : Database}

theorem ready_of_written (sound : Sound database.sessions)
    (unused : database.sessions.find? environment.newSessionId = none)
    (written : RowWritten environment database fork start) :
    Ready environment start := by
  obtain ⟨actorId, created⟩ := written.created
  refine ⟨sound.create created, written.present, ?_⟩
  rw [created.successor_eq]
  unfold successor
  rw [unused]
  rfl

theorem Ready.of_sessions {first second : Database} (ready : Ready environment first)
    (same : second.sessions = first.sessions) : Ready environment second := by
  constructor <;> rw [same]
  · exact ready.sound
  · exact ready.isPresent
  · exact ready.last

section

variable (sound : Sound database.sessions)
  (unused : database.sessions.find? environment.newSessionId = none)
include sound unused

theorem publish_sound (different : fork.sessionId ≠ environment.newSessionId) :
    Ensures database (publish environment fork) (fun _ state => Sound state.sessions)
      (fun state => Sound state.sessions) := by
  apply Ensures.seq (createRow_ensures sound
    (fun _ written => (ready_of_written sound unused written).sound))
  intro _ state written
  have ready := ready_of_written sound unused written
  apply Ensures.bind (copySessionPrefix_ensures written.present different (written.vacant unused))
  · intro final stopped
    exact (ready.of_sessions stopped.1).sound
  intro _ state copied
  obtain ⟨_, _, copied, _⟩ := copied
  have ready := ready.of_sessions copied.sessions
  have marking : Ensures state (markOrigin environment fork) (fun _ state => Sound state.sessions)
      (fun state => Sound state.sessions) := by
    refine perform_ensures ?_ (fun _ => ready.sound) (fun _ _ _ after => after)
    apply Ensures.commit
    · intro marked next success
      cases success
      exact ready.sound.mark different ready.isPresent ready.last _
    · exact ready.sound
  apply Ensures.seq marking
  intro marked state after
  apply Ensures.demand
  · intro _
    exact after
  · intro _
    exact Ensures.pure after

theorem branch_sound (sessionId entryUuid actorUserId : String) :
    Ensures database (branch environment sessionId entryUuid actorUserId)
      (fun _ state => Sound state.sessions) (fun state => Sound state.sessions) := by
  apply Ensures.bind (lookUp_ensures environment database sessionId entryUuid actorUserId)
  · intro state same
    rw [same]
    exact sound
  intro fork state found
  obtain ⟨same, row, cwd, anchorUuid, looksUp, isFork⟩ := found
  subst same isFork
  refine Ensures.seq ((publish_sound sound unused (looksUp.different unused)).orUndo ?_) ?_
  · intro failure middle before
    unfold withdraw
    split
    · exact before
    · exact discardBranch_sound before
  · intro copied final after
    exact Ensures.pure after

end

end Branch

/-! ## All sequences of calls -/

/-- The calls on the sessions; identifiers of new sessions are fresh.  The
client library appends to the transcripts in between. -/
inductive Operation where
  | create (registry : Registry) (request : NewSession) (now : Nat)
  | append (fold : Option Json → List Entry → Json) (key : EntryKey)
      (entries : List Entry)
  | branch (environment : Environment)
      (sessionId entryUuid actorUserId : String)
  | discard (environment : Environment)
      (originSessionId newSessionId : String)
  | delete (sessionId : String) (now : Nat)

/-- A refused call changes nothing. -/
def orSame (database : Database) : Except Refusal Database → Database
  | .ok next => next
  | .error _ => database

def perform (database : Database) : Operation → Option Database
  | .create registry request now =>
    if database.sessions.find? request.sdkSessionId = none then
      some (orSame database (database.create registry request now))
    else none
  | .append fold key entries => some (orSame database (database.append fold key entries))
  | .branch environment sessionId entryUuid actorUserId =>
    if database.sessions.find? environment.newSessionId = none then
      some (SessionBranch.branch environment sessionId entryUuid actorUserId database).2
    else none
  | .discard environment originSessionId newSessionId =>
    some (SessionBranch.discard environment originSessionId newSessionId database)
  | .delete sessionId now => some (database.delete sessionId now)

def sessionSystem : TransitionSystem Database Operation :=
  .ofFunction Database.empty perform

theorem perform_sound {database next : Database} {operation : Operation}
    (sound : Sound database.sessions) (step : perform database operation = some next) :
    Sound next.sessions := by
  cases operation with
  | create registry request now =>
    simp only [perform] at step
    split at step <;> cases step
    cases created : database.create registry request now with
    | error refusal => exact sound
    | ok next =>
      obtain ⟨⟨_, _, _, made⟩, _, _⟩ := Database.create_spec created
      exact sound.create made
  | append fold key entries =>
    cases step
    unfold Database.append
    repeat' split
    all_goals exact sound
  | branch environment sessionId entryUuid actorUserId =>
    simp only [perform] at step
    split at step <;> cases step
    rename_i unused
    have ensured := branch_sound sound unused sessionId entryUuid actorUserId
    cases ran : SessionBranch.branch environment sessionId entryUuid actorUserId database with
    | mk outcome final =>
      cases outcome with
      | ok result => exact ensured.ok ran
      | error failure => exact ensured.error ran
  | discard environment originSessionId newSessionId =>
    cases step
    unfold SessionBranch.discard
    split
    · exact discardBranch_sound sound
    · exact sound
  | delete sessionId now =>
    cases step
    exact sound.delete sessionId now

theorem sound_invariant : sessionSystem.Invariant (fun database => Sound database.sessions) :=
  { initially := fun _ isEmpty => isEmpty ▸ Sound.empty
    preserved := fun _ _ _ sound step => perform_sound sound step }

/-! ## What the user sees -/

/-- The session list without filters. -/
def allSessions (limit offset : Int) : ListRequest :=
  { projectName := ""
    actorUserId := ""
    status := none
    limit := limit
    offset := offset }

variable {sessions : SessionTable}

/-- A session that is not superseded is on some page, whatever the size of a
page. -/
theorem listed_of_free {row : AgentSession} (member : row ∈ sessions.rows)
    (free : row.supersededBy = none) (limit : Int) :
    ∃ offset, row ∈ list sessions (allSessions limit offset) := by
  have selected : ∀ offset, row ∈ (sessions.select (allSessions limit offset).keeps).insertionSort
        (fun first second => second.updatedAt ≤ first.updatedAt) := by
    intro offset
    apply (List.mem_insertionSort _).mpr
    exact List.mem_filter.mpr ⟨member, by simp [ListRequest.keeps, allSessions, free]⟩
  obtain ⟨index, stored⟩ := List.getElem?_of_mem (selected 0)
  refine ⟨index, ?_⟩
  unfold list
  have first : (max 0 (allSessions limit index).offset).toNat = index := by
    show (max 0 (index : Int)).toNat = index
    omega
  have some : 0 < (max 1 (allSessions limit index).limit).toNat := by
    show 0 < (max 1 limit).toNat
    omega
  rw [first]
  apply List.mem_of_getElem? (i := 0)
  rw [List.getElem?_take_of_lt some, List.getElem?_drop, Nat.add_zero]
  exact stored

/-- Deleting a session does no harm to another: it stays, it stays in the
list, and where it led it leads if that is not the deleted one. -/
structure Unharmed (before after : SessionTable) (gone : String) (other : String) : Prop where
  stays : present after other
  visible : successor before other = none → successor after other = none
  leads : ∀ last, last ≠ gone → successor before last = none → Leads (successor before) other last →
    Leads (successor after) other last ∧ successor after last = none

theorem Sound.unharmed (sound : Sound sessions)
    {gone other : String} (now : Nat) (isPresent : present sessions other)
    (different : other ≠ gone) :
    Unharmed sessions (SessionRepository.delete sessions gone now).2 gone
      other := by
  have visible : ∀ sessionId, sessionId ≠ gone → successor sessions sessionId = none →
      successor (SessionRepository.delete sessions gone now).2 sessionId = none := by
    intro sessionId notGone free
    rw [delete_successor notGone, free, if_neg (by simp)]
  refine ⟨delete_present.mpr ⟨different, isPresent⟩, visible other different, ?_⟩
  intro last stays free leads
  refine ⟨?_, visible last stays free⟩
  exact sound.terminates.leads_spliced
    (fun key notGone => delete_successor notGone) stays leads different

/-- After any sequence of creations, branches, discards and deletions. -/
theorem supersession_chains_sound {database : Database}
    (reachable : sessionSystem.Reachable database) :
    (∀ row ∈ database.sessions.rows, ∀ target, row.supersededBy = some target →
        ∃ named ∈ database.sessions.rows, named.sdkSessionId = target) ∧
    Terminates (successor database.sessions) ∧
    (∀ row ∈ database.sessions.rows, ∀ limit, ∃ last ∈ database.sessions.rows,
        Leads (successor database.sessions) row.sdkSessionId last.sdkSessionId ∧
        last.supersededBy = none ∧
        ∃ offset, last ∈ list database.sessions (allSessions limit offset)) ∧
    ∀ gone now, ∀ row ∈ database.sessions.rows, row.sdkSessionId ≠ gone →
      Unharmed database.sessions (database.delete gone now).sessions gone row.sdkSessionId := by
  have sound : Sound database.sessions := sound_invariant.reachable reachable
  have isPresent : ∀ row ∈ database.sessions.rows, present database.sessions row.sdkSessionId := by
    intro row member
    unfold present
    rw [find?_of_mem member]
    rfl
  refine ⟨?_, sound.terminates, ?_, ?_⟩
  · intro row member target points
    have named : present database.sessions target := by
      apply sound.existing row.sdkSessionId
      unfold successor
      rw [find?_of_mem member]
      exact points
    obtain ⟨found, isFound⟩ := Option.isSome_iff_exists.mp named
    exact ⟨found, find?_mem isFound, find?_key isFound⟩
  · intro row member limit
    obtain ⟨last, leads, lastPresent, ends⟩ := sound.terminates.leads_to_end
      (fun key target _ points => sound.existing key target points) (isPresent row member)
    obtain ⟨lastRow, found⟩ := Option.isSome_iff_exists.mp lastPresent
    have lastMember := find?_mem found
    have free : lastRow.supersededBy = none := by
      simpa [successor, found] using ends
    refine ⟨lastRow, lastMember, ?_, free, listed_of_free lastMember free limit⟩
    rw [find?_key found]
    exact leads
  · intro gone now row member different
    exact sound.unharmed now (isPresent row member) different

/-- A session is created, gets a message and is branched at it. -/
def branchedOnce : List Operation :=
  [.create quietEnvironment.registry
      { projectName := "project"
        sdkSessionId := "origin"
        title := ""
        userId := "user"
        forkParentSessionId := none
        forkAnchorUuid := none } 0,
    .append quietEnvironment.foldSessionSummary
      { projectKey := "/project"
        sessionId := "origin"
        subpath := "" } [[("type", .str "user"), ("uuid", .str "first")]],
    .branch quietEnvironment "origin" "first" "user"]

theorem branchedOnce_points : (branchedOnce.foldlM perform Database.empty).map
      (fun database => successor database.sessions "origin") =
      some (some "new") := by
  decide +kernel

theorem branched_session_leads_to_branch : ∃ database, sessionSystem.Reachable database ∧
      successor database.sessions "origin" = some "new" ∧
      ∀ row ∈ database.sessions.rows, ∀ limit, ∃ last ∈ database.sessions.rows,
          Leads (successor database.sessions) row.sdkSessionId last.sdkSessionId ∧
          last.supersededBy = none ∧
          ∃ offset, last ∈ list database.sessions (allSessions limit offset) := by
  obtain ⟨database, ran, points⟩ := Option.map_eq_some_iff.mp branchedOnce_points
  have reachable : sessionSystem.Reachable database :=
    ⟨Database.empty, branchedOnce, rfl, TransitionSystem.Run.of_foldlM (fun _ _ _ step => step) ran⟩
  exact ⟨database, reachable, points, (supersession_chains_sound reachable).2.2.1⟩

end Supersession

end MatrixSpooll.Session
