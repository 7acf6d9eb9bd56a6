import MatrixSpooll.Session.SendMessage

/-!
# One turn in flight

The check of the status and the hand-over that sets it are separate steps of a
call, with the insertion of the entry between them.  Two calls that are both
between the two steps are both accepted.  Where a call makes the check only
while no other call is between them, a query is handed over only when no
earlier one is unfinished.
-/

namespace MatrixSpooll.Session

open Library List

namespace SendMessage

/-- No two calls have the same key. -/
def DistinctKeys (request : CallId → Request) : Prop :=
  ∀ first second key, (request first).clientKey = some key →
    (request second).clientKey = some key → first = second

namespace Phase

/-- The call has passed the check and has not handed its query over. -/
def window : Phase → Bool
  | .rechecking => true
  | .rechecked _ => true
  | .inserting => true
  | .inserted _ => true
  | .conflicted => true
  | .reread _ => true
  | .marking _ => true
  | _ => false

/-- The next step of the call checks the status. -/
def checks (request : Request) : Phase → Bool
  | .start => !(request.hasEntry && request.clientKey.isSome)
  | .prechecked found => found.isNone
  | _ => false

/-- The call is between its check and the answer to its query, or has not
noticed that the query has failed. -/
def holds : Phase → Bool
  | .delivering _ => true
  | .answered _ delivered => !delivered
  | phase => phase.window

/-- What such a call says about the session. -/
def Fits (call : CallId) (status : SessionStatus) (unfinished : List CallId) : Phase → Prop
  | .delivering _ => unfinished = [call]
  | .answered _ false => unfinished = [] ∧ status = .running
  | phase => phase.window = true → unfinished = [] ∧ status ≠ .running

section

variable {phase : Phase} {call : CallId} {status : SessionStatus} {unfinished : List CallId}

theorem holds_of_window (inside : phase.window = true) : phase.holds = true := by
  cases phase <;> first | exact inside | cases inside

theorem fits_of_window (inside : phase.window = true)
    (idle : unfinished = [] ∧ status ≠ .running) : phase.Fits call status unfinished := by
  cases phase <;> first | exact fun _ => idle | cases inside

theorem fits_of_not_holds (free : phase.holds = false) : phase.Fits call status unfinished := by
  cases phase with
  | answered entry delivered =>
    cases delivered with
    | false => cases free
    | true => nofun
  | delivering entry => cases free
  | _ => simp_all [holds, Fits]

theorem Fits.idle (fits : phase.Fits call status unfinished) (inside : phase.window = true) :
    unfinished = [] ∧ status ≠ .running := by
  cases phase <;> first | exact fits inside | cases inside

end

/-- The call is over. -/
def ended : Phase → Bool
  | .returned _ => true
  | .busy => true
  | .integrityError => true
  | .failed => true
  | _ => false

/-- The call may have written an entry. -/
def wrote : Phase → Bool
  | .inserted _ => true
  | .marking _ => true
  | .delivering _ => true
  | .answered _ _ => true
  | .undelivered _ => true
  | .returned _ => true
  | .failed => true
  | _ => false

/-- The query of the call was handed to the actor. -/
def handed : Phase → Bool
  | .delivering _ => true
  | .answered _ _ => true
  | .undelivered _ => true
  | .returned _ => true
  | .failed => true
  | _ => false

/-- The call has met the entry of another call. -/
def collided : Phase → Bool
  | .prechecked found => found.isSome
  | .rechecked found => found.isSome
  | .conflicted => true
  | .reread _ => true
  | .integrityError => true
  | _ => false

end Phase

/-- A call checks the status only while no other call is between its check and
its hand-over. -/
def ChecksAlone (request : CallId → Request) (conversation : Conversation) : Event → Prop
  | .advance call => (conversation.phase call).checks (request call) = true →
      ∀ other, other ≠ call → (conversation.phase other).window = false
  | _ => True

theorem phase_of_move (conversation : Conversation) (call : CallId) (new : Phase) (other : CallId) :
    (other = call ∧ (conversation.move call new).phase other = new) ∨
      (other ≠ call ∧ (conversation.move call new).phase other = conversation.phase other) := by
  by_cases same : other = call
  · left
    exact ⟨same, by rw [same, move_phase_self]⟩
  · right
    exact ⟨same, move_phase_of_ne _ same _⟩

/-- At most one call is in such a phase, and still is when a call moves into
one that no other call is in. -/
theorem unique_of_move {conversation after : Conversation} {call : CallId}
    {new : Phase} {test : Phase → Bool} (phase : after.phase = (conversation.move call new).phase)
    (unique : ∀ first second, test (conversation.phase first) = true →
      test (conversation.phase second) = true → first = second)
    (alone : test new = true → ∀ other, other ≠ call → test (conversation.phase other) = false)
    (first second : CallId) (ofFirst : test (after.phase first) = true)
    (ofSecond : test (after.phase second) = true) : first = second := by
  have phases := phase_of_move conversation call new
  rw [← phase] at phases
  rcases phases first with ⟨isFirst, here⟩ | ⟨notFirst, here⟩
  · rcases phases second with ⟨isSecond, there⟩ | ⟨notSecond, there⟩
    · rw [isFirst, isSecond]
    · rw [here] at ofFirst
      rw [there, alone ofFirst second notSecond] at ofSecond
      cases ofSecond
  · rcases phases second with ⟨isSecond, there⟩ | ⟨notSecond, there⟩
    · rw [there] at ofSecond
      rw [here, alone ofSecond first notFirst] at ofFirst
      cases ofFirst
    · rw [here] at ofFirst
      rw [there] at ofSecond
      exact unique first second ofFirst ofSecond

/-! ## Exclusion -/

/-- The calls that hold the session, and the queries that are not finished,
are at most one. -/
structure Exclusive (conversation : Conversation) : Prop where
  alone : ∀ first second, (conversation.phase first).holds = true →
    (conversation.phase second).holds = true → first = second
  fits : ∀ call, (conversation.phase call).Fits call conversation.status conversation.unfinished
  running : conversation.unfinished ≠ [] → conversation.status = .running
  atMostOne : conversation.unfinished.length ≤ 1
  taken : ∀ call ∈ conversation.delivered, (conversation.phase call).taken = true

namespace Exclusive

variable {conversation : Conversation} {call : CallId}

theorem initially (status : SessionStatus) : Exclusive (SendMessage.initially status) :=
  { alone := nofun
    fits := fun _ => nofun
    running := fun unfinished => absurd rfl unfinished
    atMostOne := Nat.zero_le 1
    taken := nofun }

variable {new : Phase}

theorem quiet_phase {request : Request} {old : Phase}
    (step : Quiet request conversation call old new) : (new.holds = true → new.window = true ∧
      (old.window = true ∨ old.checks request = true ∧ conversation.status ≠ .running)) ∧
    (old.taken = true → new.taken = true) := by
  have checked : (check request conversation.status).holds = true →
      (check request conversation.status).window = true ∧ conversation.status ≠ .running := by
    unfold check afterCheck
    split_ifs <;> simp [Phase.holds, Phase.window, *]
  cases step with
  | checkAtOnce unkeyed =>
    refine ⟨?_, nofun⟩
    intro holds
    exact ⟨(checked holds).1, .inr ⟨by simp [Phase.checks, unkeyed], (checked holds).2⟩⟩
  | check =>
    refine ⟨?_, nofun⟩
    intro holds
    exact ⟨(checked holds).1, .inr ⟨rfl, (checked holds).2⟩⟩
  | settle row | settleOther row =>
    unfold settle
    split <;> simp [Phase.holds, Phase.window, Phase.taken]
  | _ => simp [Phase.holds, Phase.window, Phase.taken]

variable {after : Conversation} {entry : Option LogRow}

section

variable (exclusive : Exclusive conversation)
include exclusive

theorem others_free (holds : (conversation.phase call).holds = true)
    (other : CallId) (different : other ≠ call) : (conversation.phase other).holds = false := by
  apply Bool.eq_false_iff.mpr
  intro otherHolds
  exact different (exclusive.alone other call otherHolds holds)

theorem not_taken (early : (conversation.phase call).taken = false) :
    call ∉ conversation.delivered := by
  intro member
  rw [exclusive.taken call member] at early
  cases early

/-- A call moves on while no other call holds the session. -/
theorem step (phase : after.phase = (conversation.move call new).phase)
    (others : ∀ other, other ≠ call → (conversation.phase other).holds = false)
    (fits : new.Fits call after.status after.unfinished)
    (running : after.unfinished ≠ [] → after.status = .running)
    (short : after.unfinished.length ≤ 1)
    (taken : ∀ other ∈ after.delivered, other ∈ conversation.delivered ∨ other = call)
    (own : call ∈ after.delivered → new.taken = true) : Exclusive after := by
  have phases := phase_of_move conversation call new
  rw [← phase] at phases
  refine ⟨unique_of_move phase exclusive.alone (fun _ => others), ?_, running, short, ?_⟩
  · intro other
    rcases phases other with ⟨same, here⟩ | ⟨different, here⟩ <;> rw [here]
    · exact same ▸ fits
    · exact Phase.fits_of_not_holds (others other different)
  · intro other member
    rcases phases other with ⟨same, here⟩ | ⟨different, here⟩ <;> rw [here]
    · exact own (same ▸ member)
    · exact exclusive.taken other ((taken other member).resolve_right different)

/-- A call moves on, within the window at most. -/
theorem moved (log : List LogRow) (holds : new.holds = true →
      (∀ other, other ≠ call → (conversation.phase other).holds = false) ∧
        new.Fits call conversation.status conversation.unfinished)
    (taken : call ∈ conversation.delivered → new.taken = true) :
    Exclusive { conversation.move call new with log := log } := by
  have phases := phase_of_move conversation call new
  refine ⟨unique_of_move rfl exclusive.alone (fun isHeld => (holds isHeld).1), ?_,
    exclusive.running, exclusive.atMostOne, ?_⟩
  · intro other
    rcases phases other with ⟨same, here⟩ | ⟨_, here⟩ <;> rw [here]
    · subst same
      cases isHeld : new.holds with
      | false => exact Phase.fits_of_not_holds isHeld
      | true => exact (holds isHeld).2
    · exact exclusive.fits other
  · intro other member
    rcases phases other with ⟨same, here⟩ | ⟨_, here⟩ <;> rw [here]
    · exact taken (same ▸ member)
    · exact exclusive.taken other member

theorem inWindow (inside : (conversation.phase call).window = true) (window : new.window = true) :
    (∀ other, other ≠ call → (conversation.phase other).holds = false) ∧
      new.Fits call conversation.status conversation.unfinished :=
  ⟨exclusive.others_free (Phase.holds_of_window inside),
    Phase.fits_of_window window ((exclusive.fits call).idle inside)⟩

theorem quiet {request : Request} (alone : (conversation.phase call).checks request = true →
      ∀ other, other ≠ call → (conversation.phase other).window = false)
    (step : Quiet request conversation call (conversation.phase call) new) :
    Exclusive (conversation.move call new) := by
  obtain ⟨holds, taken⟩ := quiet_phase step
  refine exclusive.moved _ ?_ (fun member => taken (exclusive.taken call member))
  intro isHeld
  obtain ⟨window, already | ⟨checking, ready⟩⟩ := holds isHeld
  · exact exclusive.inWindow already window
  · have nothing : conversation.unfinished = [] := by
      by_contra unfinished
      exact ready (exclusive.running unfinished)
    refine ⟨?_, Phase.fits_of_window window ⟨nothing, ready⟩⟩
    intro other different
    have outside := alone checking other different
    have fits := exclusive.fits other
    -- who waits for an answer, or has not noticed it, finds the session running
    generalize conversation.phase other = phase at outside fits
    cases phase with
    | delivering entry => cases nothing.symm.trans fits
    | answered entry delivered =>
      cases delivered with
      | false => exact absurd fits.2 ready
      | true => rfl
    | _ => exact outside

theorem handOver (here : conversation.phase call = .marking entry) :
    Exclusive { conversation.move call (.delivering entry) with
      status := .running
      accepted := conversation.accepted ++ [call]
      unfinished := conversation.unfinished ++ [call] } := by
  have inside : (conversation.phase call).window = true := by
    rw [here]
    rfl
  have nothing := ((exclusive.fits call).idle inside).1
  have undelivered : call ∉ conversation.delivered := exclusive.not_taken (by rw [here]; rfl)
  refine exclusive.step rfl (exclusive.others_free (Phase.holds_of_window inside)) ?_
    (fun _ => rfl) (by simp [nothing]) (fun _ => .inl) (fun member => absurd member undelivered)
  simp [Phase.Fits, nothing]

/-- The call notices that its query has failed. -/
theorem notice (here : conversation.phase call = .answered entry false) :
    Exclusive { conversation.move call (afterFailure entry) with status := .error } := by
  have fits := exclusive.fits call
  rw [here] at fits
  have undelivered : call ∉ conversation.delivered := exclusive.not_taken (by rw [here]; rfl)
  refine exclusive.step rfl (exclusive.others_free (by rw [here]; rfl)) ?_
    (fun nonempty => absurd fits.1 nonempty) exclusive.atMostOne (fun _ => .inl)
    (fun member => absurd member undelivered)
  cases entry <;> nofun

theorem answered (here : conversation.phase call = .delivering entry)
    {delivered : Bool} (phase : after.phase =
      (conversation.move call (.answered entry delivered)).phase)
    (status : after.status = conversation.status) (unfinished : after.unfinished =
      if delivered then conversation.unfinished
      else conversation.unfinished.erase call)
    (taken : ∀ other ∈ after.delivered, other ∈ conversation.delivered ∨
      other = call ∧ delivered = true) : Exclusive after := by
  have only := exclusive.fits call
  rw [here] at only
  change conversation.unfinished = [call] at only
  have isRunning := status.trans (exclusive.running (by rw [only]; simp))
  rw [only] at unfinished
  refine exclusive.step phase (exclusive.others_free (by rw [here]; rfl)) ?_ (fun _ => isRunning)
    ?_ (fun other member => (taken other member).imp_right And.left) ?_
  · cases delivered with
    | false => exact ⟨by simpa using unfinished, isRunning⟩
    | true => nofun
  · rw [unfinished]
    split <;> simp
  · intro member
    rcases taken call member with already | ⟨_, isDelivered⟩
    · exact absurd already (exclusive.not_taken (by rw [here]; rfl))
    · exact isDelivered

/-- A turn ends: nothing else was unfinished, and no call holds the session. -/
theorem finish {rest : List CallId} (first : conversation.unfinished = call :: rest)
    (delivered : call ∈ conversation.delivered) (status : SessionStatus) :
    Exclusive { conversation with
      status := status
      unfinished := rest } := by
  have last : rest = [] := by
    have short := exclusive.atMostOne
    rw [first] at short
    exact length_eq_zero_iff.mp (Nat.le_zero.mp (Nat.le_of_succ_le_succ short))
  refine ⟨exclusive.alone, ?_, fun nonempty => absurd last nonempty, by simp [last],
    exclusive.taken⟩
  intro other
  have fits := exclusive.fits other
  have taken := exclusive.taken call delivered
  rw [first] at fits
  cases there : conversation.phase other with
  | delivering entry =>
    rw [there] at fits
    cases fits
    rw [there] at taken
    cases taken
  | answered entry isDelivered =>
    rw [there] at fits
    cases isDelivered with
    | false => cases fits.1
    | true => nofun
  | _ =>
    rw [there] at fits
    intro inside
    cases (fits inside).1

end

theorem preserved {request : CallId → Request} {event : Event} (exclusive : Exclusive conversation)
    (alone : ChecksAlone request conversation event)
    (step : Change request conversation event after) : Exclusive after := by
  cases step with
  | quiet step => exact exclusive.quiet alone step
  | @insert call here free =>
    refine exclusive.moved _ (fun _ => exclusive.inWindow (by rw [here]; rfl) rfl) ?_
    intro member
    exact absurd member (exclusive.not_taken (by rw [here]; rfl))
  | handOver here => exact exclusive.handOver here
  | notice here => exact exclusive.notice here
  | @withdraw call row here =>
    refine exclusive.moved _ nofun ?_
    intro member
    exact absurd member (exclusive.not_taken (by rw [here]; rfl))
  | @deliver call entry here =>
    refine exclusive.answered here rfl rfl rfl ?_
    intro other member
    rcases mem_append.mp member with already | now
    · exact .inl already
    · exact .inr ⟨mem_singleton.mp now, rfl⟩
  | refuse here => exact exclusive.answered here rfl rfl rfl (fun _ member => .inl member)
  | finish first delivered => exact exclusive.finish first delivered _

end Exclusive

theorem Exclusive.accepts {request : CallId → Request}
    {before after : Conversation} {event : Event} (exclusive : Exclusive before)
    (step : Change request before event after)
    (accepts : after.accepted ≠ before.accepted) : before.unfinished = [] := by
  cases step with
  | @handOver call entry here => exact ((exclusive.fits call).idle (by rw [here]; rfl)).1
  | _ => exact absurd rfl accepts

/-! ## Calls that are not accepted -/

/-- The entries of the log are those of calls that had passed the check, and
a call meets only its own. -/
structure Traced (request : CallId → Request) (conversation : Conversation) : Prop where
  authored : ∀ row ∈ conversation.log, row.clientKey = (request row.author).clientKey ∧
      (conversation.phase row.author).wrote = true
  own : ∀ call row, conversation.phase call = .inserted row → row.author = call
  clean : ∀ call, (conversation.phase call).collided = false
  accepted : ∀ call, (conversation.phase call).handed = true → call ∈ conversation.accepted

namespace Traced

variable {request : CallId → Request} {conversation : Conversation} {call : CallId}

theorem initially (status : SessionStatus) : Traced request (SendMessage.initially status) := by
  constructor
  · intro row member
    cases member
  · intro call row here
    cases here
  · intro call
    rfl
  · intro call handed
    cases handed

/-- A call moves on, and the log loses nothing but entries or gains one of
the call. -/
theorem moved (traced : Traced request conversation) {new : Phase} {after : Conversation}
    (phase : after.phase = (conversation.move call new).phase)
    (log : ∀ row ∈ after.log, row ∈ conversation.log ∨
      row.author = call ∧ row.clientKey = (request call).clientKey ∧ new.wrote = true)
    (keeps : (conversation.phase call).wrote = true → new.wrote = true)
    (own : ∀ row, new = .inserted row → row.author = call) (clean : new.collided = false)
    (accepted : ∀ other ∈ conversation.accepted, other ∈ after.accepted)
    (handed : new.handed = true → call ∈ after.accepted) :
    Traced request after := by
  have phases := phase_of_move conversation call new
  rw [← phase] at phases
  constructor
  · intro row member
    rcases log row member with stored | ⟨author, keyed, wrote⟩
    · obtain ⟨keyed, wrote⟩ := traced.authored row stored
      refine ⟨keyed, ?_⟩
      rcases phases row.author with ⟨same, here⟩ | ⟨_, here⟩ <;> rw [here]
      · exact keeps (same ▸ wrote)
      · exact wrote
    · rw [author, phase, move_phase_self]
      exact ⟨keyed, wrote⟩
  · intro other row isInserted
    rcases phases other with ⟨same, here⟩ | ⟨_, here⟩ <;>
      rw [here] at isInserted
    · exact same ▸ own row isInserted
    · exact traced.own other row isInserted
  · intro other
    rcases phases other with ⟨_, here⟩ | ⟨_, here⟩ <;> rw [here]
    · exact clean
    · exact traced.clean other
  · intro other isHanded
    rcases phases other with ⟨same, here⟩ | ⟨_, here⟩ <;> rw [here] at isHanded
    · exact same ▸ handed isHanded
    · exact accepted other (traced.accepted other isHanded)

theorem check_phase (request : Request) (status : SessionStatus) :
    (∀ row, check request status ≠ .inserted row) ∧ (check request status).collided = false ∧
      (check request status).handed = false := by
  unfold check afterCheck
  split_ifs <;> simp [Phase.collided, Phase.handed]

theorem quiet_phase (distinct : DistinctKeys request)
    (traced : Traced request conversation) {new : Phase}
    (step : Quiet (request call) conversation call (conversation.phase call) new) :
    ((conversation.phase call).wrote = true → new.wrote = true) ∧
    (∀ row, new ≠ .inserted row) ∧ new.collided = false ∧
    (new.handed = true → (conversation.phase call).handed = true) := by
  have lookUp : (conversation.phase call).wrote = false →
      conversation.lookUp (request call).clientKey = none := by
    intro unwritten
    rw [Option.eq_none_iff_forall_ne_some]
    intro row found
    obtain ⟨member, key, isKey, keyed⟩ := mem_of_lookUp found
    obtain ⟨authorKey, wrote⟩ := traced.authored row member
    rw [keyed] at authorKey
    have same := distinct row.author call key authorKey.symm isKey
    rw [same, unwritten] at wrote
    cases wrote
  have clean := traced.clean call
  have own := traced.own call
  generalize conversation.phase call = old at step lookUp clean own
  obtain ⟨notInserted, uncollided, unhanded⟩ := check_phase (request call) conversation.status
  cases step with
  | precheck _ _ | recheck => simp [lookUp rfl, Phase.wrote, Phase.collided, Phase.handed]
  | checkAtOnce _ | check =>
    exact ⟨by simp [Phase.wrote], notInserted, uncollided, by simp [unhanded]⟩
  | hit _ | hitAgain _ | reread | settleOther _ | gone => cases clean
  | miss | confirm _ => simp [Phase.wrote, Phase.collided, Phase.handed]
  | conflict taken =>
    unfold conflicts at taken
    rw [lookUp rfl] at taken
    cases taken
  | settle row =>
    have marks : settle call row = .marking (some row) := if_pos (own row rfl)
    simp [marks, Phase.wrote, Phase.collided, Phase.handed]

theorem preserved (distinct : DistinctKeys request) {event : Event}
    {after : Conversation} (traced : Traced request conversation)
    (step : Change request conversation event after) :
    Traced request after := by
  have handed : ∀ {call old}, conversation.phase call = old →
      old.handed = true → call ∈ conversation.accepted := by
    intro call old here isHanded
    exact traced.accepted call (here ▸ isHanded)
  cases step with
  | @quiet call new step =>
    obtain ⟨keeps, notInserted, clean, stillHanded⟩ := traced.quiet_phase distinct step
    refine traced.moved rfl (fun _ member => .inl member) keeps ?_ clean (fun _ member => member) ?_
    · intro row isInserted
      exact absurd isInserted (notInserted row)
    · intro isHanded
      exact traced.accepted call (stillHanded isHanded)
  | @insert call here free =>
    refine traced.moved rfl ?_ (fun _ => rfl) ?_ rfl (fun _ member => member) ?_
    · intro row member
      rcases mem_append.mp member with stored | added
      · exact .inl stored
      · rw [mem_singleton.mp added]
        exact .inr ⟨rfl, rfl, rfl⟩
    · intro row isInserted
      cases isInserted
      rfl
    · intro isHanded
      cases isHanded
  | @handOver call entry here =>
    refine traced.moved rfl (fun _ member => .inl member) (fun _ => rfl) (by simp) rfl ?_ ?_
    · intro other member
      exact mem_append_left _ member
    · intro _
      exact mem_append_right _ (mem_singleton_self call)
  | @notice call entry here =>
    refine traced.moved rfl (fun _ member => .inl member) ?_ ?_ ?_
      (fun _ member => member) (fun _ => handed here rfl)
    all_goals
      cases entry <;> simp [afterFailure, Phase.wrote, Phase.collided]
  | @withdraw call row here =>
    refine traced.moved rfl ?_ (fun _ => rfl) (by simp) rfl
      (fun _ member => member) (fun _ => handed here rfl)
    intro stored member
    exact .inl (mem_of_mem_filter member)
  | @deliver call entry here | @refuse call entry here =>
    exact traced.moved rfl (fun _ member => .inl member) (fun _ => rfl)
      (by simp) rfl (fun _ member => member) (fun _ => handed here rfl)
  | finish first delivered =>
    exact ⟨traced.authored, traced.own, traced.clean, traced.accepted⟩

end Traced

/-- Where calls check the status one at a time, a query is handed over only
when no earlier one is unfinished.  A call that ends without having handed its
query over was rejected as busy and has no entry in the log. -/
theorem one_turn_in_flight {request : CallId → Request}
    (distinct : DistinctKeys request) : (∀ before event after,
      ((messageSystem request).restrict (ChecksAlone request)).Reachable before →
      (messageSystem request).step before event after →
      after.accepted ≠ before.accepted → before.unfinished = []) ∧
    ∀ conversation, (messageSystem request).Reachable conversation →
      ∀ call, (conversation.phase call).ended = true →
        call ∈ conversation.accepted ∨ conversation.phase call = .busy ∧
            ∀ row ∈ conversation.log, row.author ≠ call := by
  constructor
  · have invariant : ((messageSystem request).restrict
        (ChecksAlone request)).Invariant Exclusive := by
      constructor
      · intro conversation isInitial
        obtain ⟨status, same⟩ := isInitial
        rw [same]
        exact Exclusive.initially status
      · intro before event after exclusive step
        exact exclusive.preserved step.1 (next_change step.2)
    intro before event after reachable step accepts
    exact (invariant.reachable reachable).accepts (next_change step) accepts
  · have invariant : (messageSystem request).Invariant (Traced request) := by
      constructor
      · intro conversation isInitial
        obtain ⟨status, same⟩ := isInitial
        rw [same]
        exact Traced.initially status
      · intro before event after traced step
        exact traced.preserved distinct (next_change step)
    intro conversation reachable call isOver
    have traced := invariant.reachable reachable
    cases here : conversation.phase call with
    | returned entry | failed => exact .inl (traced.accepted call (by rw [here]; rfl))
    | busy =>
      right
      refine ⟨rfl, ?_⟩
      intro row member author
      have wrote := (traced.authored row member).2
      rw [author, here] at wrote
      cases wrote
    | integrityError =>
      have clean := traced.clean call
      rw [here] at clean
      cases clean
    | _ =>
      rw [here] at isOver
      cases isOver

/-! ## Two calls with different keys -/

/-- Every call has a key of its own length. -/
def distinctRequest (call : CallId) : Request :=
  { hasEntry := true
    clientKey := some (String.ofList (replicate (call + 1) 'k')) }

theorem distinctRequest_distinctKeys : DistinctKeys distinctRequest := by
  intro first second key isFirst isSecond
  have same : String.ofList (replicate (first + 1) 'k') =
      String.ofList (replicate (second + 1) 'k') :=
    Option.some.inj (isFirst.trans isSecond.symm)
  have lengths := congrArg String.length same
  rw [String.length_ofList, String.length_ofList, length_replicate, length_replicate] at lengths
  exact Nat.succ.inj lengths

/-- The first call hands its query over, the third is rejected, and the second
makes its check when the turn of the first is over. -/
def sentInTurn : List Event :=
  replicate 7 (.advance 0) ++ replicate 2 (.advance 2) ++
    [.answer 0 true, .finalize .completed, .advance 0] ++ replicate 6 (.advance 1)

theorem later_call_is_accepted_when_idle : ∃ before after, ((messageSystem distinctRequest).restrict
        (ChecksAlone distinctRequest)).Reachable before ∧
      (messageSystem distinctRequest).step before (.advance 1) after ∧
      before.accepted = [0] ∧ after.accepted = [0, 1] ∧ before.unfinished = [] ∧
      before.phase 2 = .busy ∧ ∀ row ∈ before.log, row.author ≠ 2 := by
  have run : ((messageSystem distinctRequest).restrict (ChecksAlone distinctRequest)).Run
      (initially .idle) sentInTurn _ :=
    .cons ⟨nofun, rfl⟩ (.cons ⟨fun _ other different => match other, different with
        | 0, own => absurd rfl own
        | _ + 1, _ => rfl, rfl⟩
      (.cons ⟨nofun, rfl⟩ (.cons ⟨nofun, rfl⟩ (.cons ⟨nofun, rfl⟩ (.cons ⟨nofun, rfl⟩
      (.cons ⟨nofun, rfl⟩ (.cons ⟨nofun, rfl⟩ (.cons ⟨fun _ other different =>
        match other, different with
        | 0, _ | 1, _ | _ + 3, _ => rfl
        | 2, own => absurd rfl own, rfl⟩
      (.cons ⟨trivial, rfl⟩ (.cons ⟨trivial, rfl⟩ (.cons ⟨nofun, rfl⟩ (.cons ⟨nofun, rfl⟩
      (.cons ⟨fun _ other different => match other, different with
        | 0, _ | 2, _ | _ + 3, _ => rfl
        | 1, own => absurd rfl own, rfl⟩
      (.cons ⟨nofun, rfl⟩ (.cons ⟨nofun, rfl⟩ (.cons ⟨nofun, rfl⟩ (.cons ⟨nofun, rfl⟩
        (.nil _))))))))))))))))))
  obtain ⟨exclusion, rejection⟩ := one_turn_in_flight distinctRequest_distinctKeys
  have finished := exclusion _ (.advance 1) _ ⟨_, _, ⟨.idle, rfl⟩, run⟩ rfl nofun
  have taken : sentInTurn.foldlM (next distinctRequest) (initially .idle) = some _ := rfl
  have rejected := rejection _ ⟨_, _, ⟨.idle, rfl⟩, .of_foldlM (fun _ _ _ => id) taken⟩ 2 rfl
  exact ⟨_, _, ⟨_, _, ⟨.idle, rfl⟩, run⟩, rfl, rfl, rfl, finished,
    rejected.resolve_left (by decide)⟩

/-- Both calls make the check before one of them hands its query over. -/
def checksInParallel : List Event :=
  replicate 6 (.advance 0) ++ replicate 6 (.advance 1) ++ [.advance 0]

theorem parallel_checks_accept_two : ∃ request before after, DistinctKeys request ∧
      (messageSystem request).Reachable before ∧
      (messageSystem request).step before (.advance 1) after ∧
      before.accepted = [0] ∧ before.unfinished = [0] ∧
      after.accepted = [0, 1] := by
  have ran : (checksInParallel.foldlM (next distinctRequest)
      (initially .idle)).map (fun conversation =>
        (conversation.accepted, conversation.unfinished,
          (next distinctRequest conversation (.advance 1)).map Conversation.accepted)) =
      some ([0], [0], some [0, 1]) := by
    decide +kernel
  obtain ⟨before, reached, observed⟩ := Option.map_eq_some_iff.mp ran
  obtain ⟨accepted, unfinished, accepts⟩ : before.accepted = [0] ∧ before.unfinished = [0] ∧
      (next distinctRequest before (.advance 1)).map Conversation.accepted = some [0, 1] := by
    simpa using observed
  obtain ⟨after, step, both⟩ := Option.map_eq_some_iff.mp accepts
  exact ⟨distinctRequest, before, after, distinctRequest_distinctKeys,
    ⟨initially .idle, checksInParallel, ⟨.idle, rfl⟩,
      TransitionSystem.Run.of_foldlM (fun _ _ _ step => step) reached⟩,
    step, accepted, unfinished, both⟩

end SendMessage

end MatrixSpooll.Session
