import MatrixSpooll.Library.Attempt
import MatrixSpooll.Library.Text
import MatrixSpooll.Session.Transcript

/-!
# Copying a transcript up to an anchor

The entries before a message of the user are stored again under a new session,
with the subagent transcripts that the entries mention.  Every call of the
store is a transaction of its own and may raise before or after it commits.
-/

namespace MatrixSpooll.Session

open Library EntryTable List Json SessionRepository

/-- The exceptions of a branch: `SessionBranchError`, `BranchAnchorError`,
`InvalidAnchorError`, what a repository refuses, and a lost connection or a
cancellation. -/
inductive BranchFailure where
  | branchError (text : String)
  | anchorError (text : String)
  | invalidAnchor (text : String)
  | refused (refusal : Refusal)
  | outage
  deriving DecidableEq

/-- The calls that a branch awaits. -/
inductive Call where
  | getMeta
  | resolveAnchor
  | create
  | loadMain
  | appendMain
  | listSubkeys
  | loadSub (subpath : String)
  | appendSub (subpath : String)
  | mark
  | clear
  | deleteTranscript
  | deleteMeta
  deriving DecidableEq

/-- Whether a call raises, and if so before or after its transaction. -/
inductive Fault where
  | none
  | before
  | after
  deriving DecidableEq

/-- What the procedures take from outside: which calls fail, clocks, the new
identifier, the order in which the database lists subpaths, and the functions
of other modules. -/
structure Environment where
  fault : Call → Fault
  clock : Call → Nat
  nowIso : String
  newSessionId : String
  arrange : List String → List String
  arranged : ∀ subpaths, (arrange subpaths).Perm subpaths
  storeConfigured : Bool
  resolveProjectCwd : String → Option String
  makeProjectKey : String → String
  resolveUserMessageAnchor : String → String → String → Option String
  registry : Registry
  foldSessionSummary : Option Json → List Entry → Json
  repr : String → String

abbrev Procedure := Attempt Database BranchFailure

def Environment.perform (environment : Environment) (call : Call)
    (step : Procedure Value) : Procedure Value :=
  match environment.fault call with
  | .none => step
  | .before => Attempt.raise .outage
  | .after => do
      let _ ← step
      Attempt.raise .outage

/-- A write of a repository as a transaction. -/
def refusing (write : Database → Except Refusal Database)
    (database : Database) : Except BranchFailure (Unit × Database) :=
  match write database with
  | .ok next => .ok ((), next)
  | .error refusal => .error (.refused refusal)

variable {write : Database → Except Refusal Database} {database : Database}

theorem refusing_of_ok {next : Database} (wrote : write database = .ok next) :
    refusing write database = .ok ((), next) := by
  unfold refusing
  rw [wrote]

theorem refusing_ok {next : Database} {value : Unit}
    (wrote : refusing write database = .ok (value, next)) :
    write database = .ok next := by
  unfold refusing at wrote
  split at wrote <;> cases wrote
  next success => exact success

theorem refusing_error {failure : BranchFailure}
    (refused : refusing write database = .error failure) :
    ∃ refusal, failure = .refused refusal := by
  unfold refusing at refused
  split at refused <;> cases refused
  exact ⟨_, rfl⟩

namespace PrefixFork

def subagentSubpathRoot : String := "subagents/"

def subagentLeafPrefix : String := "agent-"

def isConversation (entry : Entry) : Bool :=
  entryType entry = "user" || entryType entry = "assistant"

def isToolResult : Json → Bool
  | .dict block => (get block "type").asStr? = some "tool_result"
  | _ => false

def carriesToolResult (entry : Entry) : Bool :=
  match get entry "message" with
  | .dict message =>
    match get message "content" with
    | .list blocks => blocks.any isToolResult
    | _ => false
  | _ => false

def hasUuid (uuid : String) (entry : Entry) : Bool :=
  (get entry "uuid").asStr? = some uuid

/-- The entries before the first one with the identifier of the anchor; the
error is the text of the `InvalidAnchorError`. -/
def prefixBeforeAnchor (repr : String → String) (entries : List Entry)
    (anchorUuid : String) : Except String (List Entry) :=
  match entries.dropWhile (fun entry => !hasUuid anchorUuid entry) with
  | [] => .error
      s!"anchor {anchorUuid} is not on the main timeline of session"
  | anchor :: _ =>
    if entryType anchor ≠ "user" then
      .error (s!"anchor {anchorUuid} is a " ++ repr (entryType anchor) ++
        " entry, not a user message")
    else if carriesToolResult anchor then
      .error s!"anchor {anchorUuid} carries tool results, not a plain user message"
    else
      .ok (entries.takeWhile (fun entry => !hasUuid anchorUuid entry))

def agentId? (entry : Entry) : Option String :=
  match get entry "toolUseResult" with
  | .dict result => (get result "agentId").nonemptyStr?
  | _ => none

def agentIds (entries : List Entry) : List String :=
  entries.filterMap agentId?

/-- The last segments of the subpaths that the entries mention. -/
def wantedLeaves (entries : List Entry) : List String :=
  (agentIds entries).map (fun agentId => subagentLeafPrefix ++ agentId)

/-- `subpath.rsplit("/", 1)[-1]`. -/
def leafOf (subpath : String) : Text :=
  (subpath.toList.reverse.takeWhile (fun char => char ≠ '/')).reverse

def matchesSubagent (subpath : String) (wanted : List String) : Bool :=
  subagentSubpathRoot.toList.isPrefixOf subpath.toList &&
    wanted.any (fun leaf => leaf.toList = leafOf subpath)

structure CopyRequest where
  projectKey : String
  sessionId : String
  anchorUuid : String
  newSessionId : String

namespace CopyRequest

variable (request : CopyRequest)

def source (subpath : String) : EntryKey :=
  { projectKey := request.projectKey
    sessionId := request.sessionId
    subpath := subpath }

def target (subpath : String) : EntryKey :=
  { projectKey := request.projectKey
    sessionId := request.newSessionId
    subpath := subpath }

def origin : Json :=
  .dict [("sessionId", .str request.sessionId), ("messageUuid", .str request.anchorUuid)]

end CopyRequest

/-- `sessionId` is rewritten where the entry has one. -/
def reassign (request : CopyRequest) (entry : Entry) : Entry :=
  if has entry "sessionId" then
    put entry "sessionId" (.str request.newSessionId)
  else entry

def rebind (request : CopyRequest) (entry : Entry) : Entry :=
  if (entryUuid entry).isSome then
    put (reassign request entry) "forkedFrom" request.origin
  else reassign request entry

/-- The last entry gets a new time stamp. -/
def stampLast (nowIso : String) : List Entry → List Entry
  | [] => []
  | [entry] => [put entry "timestamp" (.str nowIso)]
  | entry :: next :: rest => entry :: stampLast nowIso (next :: rest)

structure PrefixCopyResult where
  entriesCopied : Nat
  subagentSubpaths : List String
  deriving DecidableEq

variable (environment : Environment)

def appendTo (call : Call) (key : EntryKey) (entries : List Entry) : Procedure Unit :=
  environment.perform call (Attempt.commit (refusing (fun database =>
    database.append environment.foldSessionSummary key entries)))

def loadFrom (call : Call) (key : EntryKey) : Procedure (List Entry) :=
  environment.perform call (Attempt.read (fun database => database.load key))

variable (request : CopyRequest)

/-- One turn of the loop over the subpaths of the origin. -/
def copySubagent (wanted : List String) (result : PrefixCopyResult)
    (subpath : String) : Procedure PrefixCopyResult :=
  if matchesSubagent subpath wanted then do
    let subEntries ← loadFrom environment (.loadSub subpath) (request.source subpath)
    if subEntries.isEmpty then pure result
    else do
      appendTo environment (.appendSub subpath) (request.target subpath)
        (subEntries.map (rebind request))
      pure
        { entriesCopied := result.entriesCopied + subEntries.length
          subagentSubpaths := result.subagentSubpaths ++ [subpath] }
  else pure result

def copySubagents (wanted : List String) (result : PrefixCopyResult) : Procedure PrefixCopyResult :=
  if wanted.isEmpty then pure result
  else do
    let subpaths ← environment.perform .listSubkeys
      (Attempt.read (fun database => environment.arrange
        (database.listSubkeys request.projectKey request.sessionId)))
    subpaths.foldlM (copySubagent environment request wanted) result

/-- What is stored for the entries of the main transcript. -/
def reboundMain (kept : List Entry) : List Entry :=
  stampLast environment.nowIso (kept.map (rebind request))

/-- The writes, once the anchor is accepted. -/
def copyKept (kept : List Entry) : Procedure PrefixCopyResult :=
  if kept.any isConversation then do
    appendTo environment .appendMain (request.target "") (reboundMain environment request kept)
    copySubagents environment request (wantedLeaves kept)
      { entriesCopied := kept.length
        subagentSubpaths := [] }
  else
    pure
      { entriesCopied := 0
        subagentSubpaths := [] }

/-- Raise the `InvalidAnchorError` or go on with the entries to copy. -/
def sliceAt (entries : List Entry) : Procedure (List Entry) :=
  match prefixBeforeAnchor environment.repr entries request.anchorUuid with
  | .error text => Attempt.raise (.invalidAnchor text)
  | .ok kept => pure kept

def copySessionPrefix : Procedure PrefixCopyResult := do
  let mainEntries ← loadFrom environment .loadMain (request.source "")
  let kept ← sliceAt environment request mainEntries
  copyKept environment request kept

/-! ## What the copy keeps -/

/-- What a view shows of an entry does not depend on the fields. -/
def Ignores (view : Entry → View) (fields : List String) : Prop :=
  ∀ entry, ∀ key ∈ fields, ∀ value, view (put entry key value) = view entry

/-- The fields that say to which session an entry belongs. -/
def membership : List String := ["sessionId", "forkedFrom"]

section

variable {View : Type} {view : Entry → View}

theorem ignores_get (shown : Json → View) {field : String}
    {fields : List String} (unread : field ∉ fields) :
    Ignores (fun entry => shown (get entry field)) fields := by
  intro entry key member value
  simp only
  rw [get_put, if_neg]
  intro same
  exact unread (same ▸ member)

theorem map_rebind (ignores : Ignores view membership) (request : CopyRequest)
    (entries : List Entry) : (entries.map (rebind request)).map view = entries.map view := by
  rw [map_map]
  apply map_congr_left
  intro entry _
  have reassigned : view (reassign request entry) = view entry := by
    unfold reassign
    split
    · exact ignores entry _ (by decide) _
    · rfl
  show view (rebind request entry) = view entry
  unfold rebind
  split
  · rw [ignores _ _ (by decide), reassigned]
  · exact reassigned

theorem map_stampLast (ignores : Ignores view ["timestamp"]) (nowIso : String)
    (entries : List Entry) : (stampLast nowIso entries).map view = entries.map view := by
  induction entries with
  | nil => rfl
  | cons entry rest induction =>
    cases rest with
    | nil =>
      rw [stampLast, map_singleton, ignores _ _ (by decide)]
      rfl
    | cons next rest =>
      rw [stampLast, map_cons, induction]
      rfl

theorem entryUuid_ignores {fields : List String} (unread : "uuid" ∉ fields) :
    Ignores entryUuid fields :=
  ignores_get nonemptyStr? unread

theorem map_reboundMain (ownership : Ignores view membership)
    (time : Ignores view ["timestamp"]) (environment : Environment)
    (request : CopyRequest) (kept : List Entry) :
    (reboundMain environment request kept).map view = kept.map view := by
  unfold reboundMain
  rw [map_stampLast time, map_rebind ownership]

end

/-! ## What the new session holds after the copy -/

/-- The content that belongs under each subpath of the new session, with the
transcripts of the origin read from `database`. -/
def copyOf (environment : Environment) (request : CopyRequest)
    (kept : List Entry) (database : Database) (subpath : String) :
    List Entry :=
  if kept.any isConversation then
    if subpath = "" then reboundMain environment request kept
    else if matchesSubagent subpath (wantedLeaves kept) then
      (database.load (request.source subpath)).map (rebind request)
    else []
  else []

/-- The copy in progress: the subpaths of `done` are there, nothing else is
stored for the new session, and nothing else has changed. -/
structure Copying (request : CopyRequest) (start : Database)
    (content : String → List Entry) (done : List String) (now : Database) :
    Prop where
  sessions : now.sessions = start.sessions
  others : ∀ key, key.sessionId ≠ request.newSessionId → now.load key = start.load key
  copied : ∀ subpath ∈ done, now.load (request.target subpath) = content subpath
  vacant : ∀ key, key.sessionId = request.newSessionId →
    (∀ subpath ∈ done, key ≠ request.target subpath) →
    now.entries.Vacant key

theorem target_injective (request : CopyRequest) {first second : String}
    (same : request.target first = request.target second) :
    first = second := by
  cases same
  rfl

namespace Copying

variable {request : CopyRequest} {start now : Database}
  {content : String → List Entry} {done : List String} {subpath : String}

section

variable (copying : Copying request start content done now)
include copying

theorem vacant_target (new : subpath ∉ done) : now.entries.Vacant (request.target subpath) := by
  apply copying.vacant _ rfl
  intro other member same
  exact new (target_injective request same ▸ member)

/-- A subpath is stored whose entries have identifiers of their own. -/
theorem append {fold : Option Json → List Entry → Json}
    (registered : present now.sessions
      (request.target subpath).sessionId) (new : subpath ∉ done)
    (distinct : EntryTable.DistinctUuids ((content subpath).map entryUuid)) :
    Copying request start content (done ++ [subpath])
      (now.appendRegistered fold (request.target subpath) (content subpath) registered) := by
  constructor
  · exact copying.sessions
  · intro key other
    have different : key ≠ request.target subpath := by
      intro same
      exact other (congrArg EntryKey.sessionId same)
    exact (payloads_insertAll_other different _ _).trans (copying.others key other)
  · intro other member
    by_cases same : other = subpath
    · subst same
      exact payloads_insertAll (copying.vacant_target new) distinct _
    · have different : request.target other ≠ request.target subpath := by
        intro sameTarget
        exact same (target_injective request sameTarget)
      have old : other ∈ done := by
        rcases mem_append.mp member with inDone | isNew
        · exact inDone
        · exact absurd (mem_singleton.mp isNew) same
      exact (payloads_insertAll_other different _ _).trans (copying.copied other old)
  · intro key own elsewhere
    apply vacant_insertAll
    · exact elsewhere subpath (by simp)
    · apply copying.vacant key own
      intro other member
      exact elsewhere other (mem_append_left _ member)

theorem skip (new : subpath ∉ done) (nothing : content subpath = []) :
    Copying request start content (done ++ [subpath]) now := by
  refine { copying with copied := ?_, vacant := ?_ }
  · intro other member
    rcases mem_append.mp member with inDone | isNew
    · exact copying.copied other inDone
    · rw [mem_singleton] at isNew
      subst isNew
      rw [nothing]
      exact payloads_vacant (copying.vacant_target new)
  · intro key own elsewhere
    apply copying.vacant key own
    intro other member
    exact elsewhere other (mem_append_left _ member)

end

end Copying

/-! ## The calls -/

open Attempt

variable {environment : Environment} {call : Call} {step : Procedure Value}

theorem perform_none (works : environment.fault call = .none) :
    environment.perform call step = step := by
  unfold Environment.perform
  rw [works]

variable {start : Database}

theorem perform_ok {final : Database} {value : Value}
    (ran : environment.perform call step start = (.ok value, final)) :
    environment.fault call = .none ∧ step start = (.ok value, final) := by
  unfold Environment.perform at ran
  cases fault : environment.fault call <;> rw [fault] at ran
  · exact ⟨rfl, ran⟩
  · cases ran
  · obtain ⟨_, _, _, raised⟩ := bind_returned ran
    cases raised

variable {raised : Database → Prop}

theorem perform_ensures {returned : Value → Database → Prop}
    (ofStep : Ensures start step returned raised)
    (unchanged : environment.fault call ≠ .none → raised start)
    (committed : environment.fault call ≠ .none → ∀ value next, returned value next → raised next) :
    Ensures start (environment.perform call step) returned raised := by
  unfold Environment.perform
  cases fault : environment.fault call with
  | none => exact ofStep
  | before => exact Ensures.raise (unchanged (by simp [fault]))
  | after =>
    apply Ensures.seq ofStep
    intro value next after
    exact Ensures.raise (committed (by simp [fault]) value next after)

theorem perform_spares {bad : BranchFailure → Prop}
    (ofStep : Spares step bad) (tolerated : ¬ bad .outage) :
    Spares (environment.perform call step) bad := by
  unfold Environment.perform
  split
  · exact ofStep
  · exact Spares.raise tolerated
  · apply Spares.bind ofStep
    intro _
    exact Spares.raise tolerated

theorem perform_readOnly (ofStep : ReadOnly step) : ReadOnly (environment.perform call step) := by
  unfold Environment.perform
  split
  · exact ofStep
  · exact ReadOnly.raise _
  · exact ReadOnly.bind ofStep (fun _ => ReadOnly.raise _)

theorem perform_read_ensures {view : Database → Value}
    (unchanged : environment.fault call ≠ .none → raised start) :
    Ensures start (environment.perform call (Attempt.read view))
      (fun value next => next = start ∧ value = view start) raised := by
  apply perform_ensures _ unchanged
  · intro fault value next same
    rw [same.1]
    exact unchanged fault
  · exact Ensures.read_last ⟨rfl, rfl⟩

theorem appendTo_ensures {key : EntryKey} {entries : List Entry} {returned : Database → Prop}
    (registered : present start.sessions key.sessionId) (nonempty : entries ≠ [])
    (stored : returned (start.appendRegistered environment.foldSessionSummary
      key entries registered))
    (unchanged : environment.fault call ≠ .none → raised start)
    (committed : environment.fault call ≠ .none → ∀ next, returned next → raised next) :
    Ensures start (appendTo environment call key entries) (fun _ => returned) raised := by
  refine perform_ensures ?_ unchanged (fun fault _ => committed fault)
  have appended : start.append environment.foldSessionSummary key entries =
      .ok (start.appendRegistered environment.foldSessionSummary key entries registered) := by
    unfold Database.append
    rw [if_neg nonempty, dif_pos registered]
  apply Ensures.of_outcome
  rw [commit_of_ok (refusing_of_ok appended)]
  exact stored

section Copy

variable {request : CopyRequest} {kept : List Entry} {subpath : String}

theorem copyOf_subagent (conversation : kept.any isConversation = true) (nonempty : subpath ≠ "") :
    copyOf environment request kept start subpath =
      if matchesSubagent subpath (wantedLeaves kept) then
        (start.load (request.source subpath)).map (rebind request)
      else [] := by
  unfold copyOf
  rw [if_pos conversation, if_neg nonempty]

theorem copyOf_distinct (keptDistinct : EntryTable.DistinctUuids (kept.map entryUuid))
    (subpath : String) :
    EntryTable.DistinctUuids ((copyOf environment request kept start subpath).map entryUuid) := by
  unfold copyOf
  split
  · split
    · rwa [map_reboundMain (entryUuid_ignores (by decide)) (entryUuid_ignores (by decide))]
    · split
      · rw [map_rebind (entryUuid_ignores (by decide))]
        exact payloads_distinct start.entries _
      · exact Pairwise.nil
  · exact Pairwise.nil

variable {now : Database}

theorem load_of_not_listed {database : Database}
    {projectKey sessionId : String} (nonempty : subpath ≠ "")
    (unlisted : subpath ∉ database.listSubkeys projectKey sessionId) :
    database.load
      { projectKey := projectKey
        sessionId := sessionId
        subpath := subpath } = [] := by
  apply payloads_vacant
  intro row member same
  apply unlisted
  apply mem_dedup.mpr
  refine mem_map.mpr ⟨row, mem_filter.mpr ⟨member, ?_⟩, ?_⟩
  · simp [same, nonempty]
  · rw [same]

theorem mem_listSubkeys_nonempty {database : Database} {projectKey sessionId : String}
    (listed : subpath ∈ database.listSubkeys projectKey sessionId) :
    subpath ≠ "" := by
  obtain ⟨row, member, same⟩ := mem_map.mp (mem_dedup.mp listed)
  have conditions := (mem_filter.mp member).2
  rw [← same]
  simp only [Bool.and_eq_true, decide_eq_true_eq] at conditions
  exact conditions.2

/-- The whole copy: every subpath of the new session has its content, it has
no other transcript, and nothing else has changed. -/
structure Copied (request : CopyRequest) (start : Database)
    (content : String → List Entry) (now : Database) : Prop where
  sessions : now.sessions = start.sessions
  content : ∀ subpath, now.load (request.target subpath) = content subpath
  elsewhere : ∀ key, key.sessionId = request.newSessionId →
    key.projectKey ≠ request.projectKey → now.load key = []

theorem Copying.finish {content : String → List Entry}
    {done : List String} (copying : Copying request start content done now)
    (rest : ∀ subpath, subpath ∉ done → content subpath = []) :
    Copied request start content now := by
  refine ⟨copying.sessions, ?_, ?_⟩
  · intro subpath
    by_cases member : subpath ∈ done
    · exact copying.copied subpath member
    · rw [rest subpath member]
      exact payloads_vacant (copying.vacant_target member)
  intro key own other
  apply payloads_vacant
  apply copying.vacant key own
  intro subpath _ same
  exact other (congrArg EntryKey.projectKey same)

/-- A call has failed and the rows of sessions are as they were. -/
def Stopped (environment : Environment) (start state : Database) : Prop :=
  state.sessions = start.sessions ∧ ∃ call, environment.fault call ≠ .none

theorem reboundMain_ne_nil (conversation : kept.any isConversation = true) :
    reboundMain environment request kept ≠ [] := by
  intro empty
  have same := map_reboundMain (entryUuid_ignores (by decide))
    (entryUuid_ignores (by decide)) environment request kept
  rw [empty] at same
  rw [map_eq_nil_iff.mp same.symm] at conversation
  cases conversation

section

variable (registered : present start.sessions request.newSessionId)
  (different : request.sessionId ≠ request.newSessionId)
include registered different

section

variable (keptDistinct : EntryTable.DistinctUuids (kept.map entryUuid))
include keptDistinct

/-- A matching subpath that is empty in the origin, or does not match, has no
content. -/
theorem copySubagent_ensures {done : List String} {result : PrefixCopyResult}
    (conversation : kept.any isConversation = true) (copying : Copying request start
      (copyOf environment request kept start) done now) (new : subpath ∉ done)
    (nonempty : subpath ≠ "") :
    Ensures now (copySubagent environment request (wantedLeaves kept) result subpath)
      (fun _ => Copying request start (copyOf environment request kept start) (done ++ [subpath]))
      (Stopped environment start) := by
  have content : copyOf environment request kept start subpath = _ :=
    copyOf_subagent conversation nonempty
  unfold copySubagent
  cases matched : matchesSubagent subpath (wantedLeaves kept) with
  | false =>
    rw [matched, if_neg (by decide)] at content
    rw [if_neg (by decide)]
    exact Ensures.pure (copying.skip new content)
  | true =>
    rw [matched, if_pos rfl] at content
    rw [if_pos rfl]
    apply Ensures.seq (perform_read_ensures (fun fault => ⟨copying.sessions, _, fault⟩))
    intro subEntries state loaded
    obtain ⟨same, entriesEq⟩ := loaded
    subst same
    rw [copying.others (request.source subpath) different] at entriesEq
    subst entriesEq
    cases isEmpty : (start.load (request.source subpath)).isEmpty with
    | true =>
      rw [if_pos rfl]
      apply Ensures.pure
      apply copying.skip new
      rw [content, isEmpty_iff.mp isEmpty]
      rfl
    | false =>
      rw [if_neg (by decide), ← content]
      have stays : present state.sessions (request.target subpath).sessionId := by
        rw [copying.sessions]
        exact registered
      apply Ensures.seq (appendTo_ensures stays _
        (copying.append stays new (copyOf_distinct keptDistinct subpath))
        (fun fault => ⟨copying.sessions, _, fault⟩)
        (fun fault _ after => ⟨after.sessions, _, fault⟩))
      · intro _ state after
        exact Ensures.pure after
      · rw [content]
        intro empty
        rw [map_eq_nil_iff.mp empty] at isEmpty
        cases isEmpty

theorem copySubagents_ensures {result : PrefixCopyResult}
    (conversation : kept.any isConversation = true) (copying : Copying request start
      (copyOf environment request kept start) [""] now)
    (listing : now.listSubkeys request.projectKey request.sessionId =
      start.listSubkeys request.projectKey request.sessionId) :
    Ensures now (copySubagents environment request (wantedLeaves kept) result)
      (fun _ state => ∃ done, Copying request start
        (copyOf environment request kept start) done state ∧
        ∀ subpath, subpath ∉ done → copyOf environment request kept start subpath = [])
      (Stopped environment start) := by
  unfold copySubagents
  cases none : (wantedLeaves kept).isEmpty with
  | true =>
    rw [if_pos rfl]
    refine Ensures.pure ⟨[""], copying, ?_⟩
    intro subpath unlisted
    have nonempty : subpath ≠ "" := by
      intro isEmpty
      exact unlisted (by rw [isEmpty]; exact mem_singleton_self "")
    rw [copyOf_subagent conversation nonempty,
      isEmpty_iff.mp none, if_neg (by simp [matchesSubagent])]
  | false =>
    rw [if_neg (by decide)]
    apply Ensures.seq (perform_read_ensures (fun fault => ⟨copying.sessions, _, fault⟩))
    intro subpaths state same
    obtain ⟨sameState, rfl⟩ := same
    subst sameState
    rw [listing]
    have permuted := environment.arranged (start.listSubkeys request.projectKey request.sessionId)
    have once : (environment.arrange
        (start.listSubkeys request.projectKey request.sessionId)).Nodup :=
      permuted.nodup_iff.mpr (nodup_dedup _)
    refine Ensures.weaken (Ensures.foldlM (fun visited _ => Copying request start
        (copyOf environment request kept start) ([""] ++ visited)) ?_
        copying) ?_ (fun _ stopped => stopped)
    · intro visited subpath rest carried state split before
      have member : subpath ∈ environment.arrange
          (start.listSubkeys request.projectKey request.sessionId) := by
        rw [← split]
        simp
      have nonempty := mem_listSubkeys_nonempty (permuted.mem_iff.mp member)
      have unvisited : subpath ∉ visited := by
        rw [← split] at once
        intro again
        exact (nodup_append.mp once).2.2 subpath again subpath mem_cons_self rfl
      rw [← append_assoc]
      apply copySubagent_ensures registered different keptDistinct conversation before _ nonempty
      intro inDone
      rcases mem_append.mp inDone with isMain | again
      · exact nonempty (mem_singleton.mp isMain)
      · exact unvisited again
    · intro _ state after
      refine ⟨_, after, ?_⟩
      intro subpath left
      have nonempty : subpath ≠ "" := by
        intro isEmpty
        exact left (by rw [isEmpty]; exact mem_cons_self)
      rw [copyOf_subagent conversation nonempty]
      have unlisted : subpath ∉ start.listSubkeys request.projectKey request.sessionId := by
        intro member
        exact left (mem_append_right _ (permuted.mem_iff.mpr member))
      have empty : start.load (request.source subpath) = [] := load_of_not_listed nonempty unlisted
      rw [empty, map_nil, ite_self]

theorem copyKept_ensures (vacant : ∀ key, key.sessionId = request.newSessionId →
      start.entries.Vacant key) :
    Ensures start (copyKept environment request kept) (fun _ state =>
        Copied request start (copyOf environment request kept start) state ∧
          (kept.any isConversation = false → state = start))
      (Stopped environment start) := by
  have untouched : Copying request start (copyOf environment request kept start) [] start :=
    { sessions := rfl
      others := fun _ _ => rfl
      copied := by simp
      vacant := fun key own _ => vacant key own }
  unfold copyKept
  cases conversation : kept.any isConversation with
  | false =>
    rw [if_neg (by decide)]
    refine Ensures.pure ⟨untouched.finish ?_, fun _ => rfl⟩
    intro subpath _
    unfold copyOf
    rw [conversation, if_neg (by decide)]
  | true =>
    rw [if_pos rfl]
    have main : copyOf environment request kept start "" =
        reboundMain environment request kept := by
      unfold copyOf
      rw [if_pos conversation, if_pos rfl]
    have appended : Ensures start (appendTo environment .appendMain (request.target "")
          (reboundMain environment request kept))
        (fun _ state => Copying request start (copyOf environment request kept start) [""] state ∧
          state.listSubkeys request.projectKey request.sessionId =
            start.listSubkeys request.projectKey request.sessionId)
        (Stopped environment start) := by
      rw [← main]
      apply appendTo_ensures registered
      · rw [main]
        exact reboundMain_ne_nil conversation
      · refine ⟨untouched.append registered (by simp) (copyOf_distinct keptDistinct ""), ?_⟩
        unfold Database.listSubkeys subpaths Database.appendRegistered
        rw [filter_insertAll]
        intro row own
        simp [own, CopyRequest.target]
      · exact fun fault => ⟨rfl, _, fault⟩
      · exact fun fault _ after => ⟨after.1.sessions, _, fault⟩
    apply Ensures.seq appended
    intro _ state after
    refine Ensures.weaken (copySubagents_ensures registered different
      keptDistinct conversation after.1 after.2) ?_ (fun _ stopped => stopped)
    intro _ final copied
    obtain ⟨done, copying, rest⟩ := copied
    exact ⟨copying.finish rest, nofun⟩

end

theorem copySessionPrefix_ensures (vacant : ∀ key, key.sessionId = request.newSessionId →
      start.entries.Vacant key) :
    Ensures start (copySessionPrefix environment request) (fun _ state => ∃ kept,
        prefixBeforeAnchor environment.repr (start.load (request.source ""))
          request.anchorUuid = .ok kept ∧
        Copied request start (copyOf environment request kept start) state ∧
        (kept.any isConversation = false → state = start))
      (fun state => state.sessions = start.sessions ∧ ((∃ kept, prefixBeforeAnchor environment.repr
          (start.load (request.source "")) request.anchorUuid = .ok kept) →
          ∃ call, environment.fault call ≠ .none)) := by
  unfold copySessionPrefix
  refine Ensures.seq (perform_read_ensures (fun fault => ⟨rfl, fun _ => ⟨_, fault⟩⟩)) ?_
  intro entries state same
  obtain ⟨sameState, sameEntries⟩ := same
  subst sameState sameEntries
  unfold sliceAt
  split
  · next rejected =>
      refine Ensures.raise ⟨rfl, ?_⟩
      rw [rejected]
      nofun
  · next kept sliced =>
      have front : kept.Sublist (state.load (request.source "")) := by
        unfold prefixBeforeAnchor at sliced
        repeat' split at sliced
        all_goals cases sliced
        exact takeWhile_sublist _
      have keptDistinct : EntryTable.DistinctUuids (kept.map entryUuid) :=
        (payloads_distinct state.entries _).sublist (front.map entryUuid)
      apply Ensures.weaken (copyKept_ensures registered different keptDistinct vacant) _
        (fun _ stopped => ⟨stopped.1, fun _ => stopped.2⟩)
      intro _ final copied
      exact ⟨kept, sliced, copied⟩

end

end Copy

end PrefixFork

end MatrixSpooll.Session
