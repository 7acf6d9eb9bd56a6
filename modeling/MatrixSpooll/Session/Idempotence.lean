import MatrixSpooll.Session.SendMessage
import Mathlib.Data.Finset.Card

/-!
# Retries of one message

All calls carry the same key.  The log holds at most one entry for it, the
entry of a delivered prompt stays, and so a prompt is delivered at most once.
A retry may find the entry of a call whose delivery is still open; it returns
the entry, and a delivery that then fails takes the entry away again.
-/

namespace MatrixSpooll.Session

open Library List

namespace SendMessage

/-- Every call has an entry and the same key. -/
def SameKey (request : CallId → Request) (key : String) : Prop :=
  ∀ call, (request call).hasEntry = true ∧ (request call).clientKey = some key

namespace Phase

/-- The own entry of a call that has written it and has not ended. -/
def opened : Phase → Option (Option LogRow)
  | .inserted row => some (some row)
  | .marking entry => some entry
  | .delivering entry => some entry
  | .answered entry _ => some entry
  | .undelivered row => some (some row)
  | _ => none

/-- An entry that a call has found in the log. -/
def saw : Phase → Option LogRow
  | .prechecked found => found
  | .rechecked found => found
  | .reread found => found
  | _ => none

/-- The next step of the call reads the log. -/
def reads : Phase → Bool
  | .start => true
  | .rechecking => true
  | .conflicted => true
  | _ => false

end Phase

/-- What a call in a phase says about the log and the deliveries. -/
structure Accounts (log : List LogRow) (delivered : List CallId) (call : CallId)
    (phase : Phase) : Prop where
  opened : ∀ entry, phase.opened = some entry →
    ∃ row ∈ log, entry = some row ∧ row.author = call
  authored : ∀ row ∈ log, row.author = call →
    phase.opened = some (some row) ∨ call ∈ delivered
  foreign : ∀ row, phase.saw = some row → row.author ≠ call
  taken : call ∈ delivered →
    phase.taken = true ∧ ∃ row ∈ log, row.author = call
  confirmed : ∀ entry, phase = .answered entry true → call ∈ delivered

/-- The log has at most one entry, that of an open or of a delivered call. -/
structure Single (key : String) (conversation : Conversation) : Prop where
  keyed : ∀ row ∈ conversation.log, row.clientKey = some key
  atMostOne : conversation.log.length ≤ 1
  calls : ∀ call, Accounts conversation.log conversation.delivered call (conversation.phase call)
  nodup : conversation.delivered.Nodup

namespace Single

variable {key : String} {conversation : Conversation} {call : CallId}

theorem initially (status : SessionStatus) : Single key (SendMessage.initially status) :=
  { keyed := nofun
    atMostOne := Nat.zero_le 1
    calls := fun _ => ⟨nofun, nofun, nofun, nofun, nofun⟩
    nodup := nodup_nil }

variable {new : Phase} {after : Conversation}

section

variable (single : Single key conversation)
include single

theorem eq_of_mem {first second : LogRow} (firstMember : first ∈ conversation.log)
    (secondMember : second ∈ conversation.log) : first = second := by
  have short := single.atMostOne
  match log : conversation.log, short with
  | [], _ =>
    rw [log] at firstMember
    cases firstMember
  | [only], _ =>
    rw [log, mem_singleton] at firstMember secondMember
    rw [firstMember, secondMember]

theorem delivered_le_one : conversation.delivered.length ≤ 1 := by
  have same : ∀ first ∈ conversation.delivered,
      ∀ second ∈ conversation.delivered, first = second := by
    intro first firstMember second secondMember
    obtain ⟨_, row, member, author⟩ := (single.calls first).taken firstMember
    obtain ⟨_, other, otherMember, otherAuthor⟩ := (single.calls second).taken secondMember
    rw [← author, ← otherAuthor, single.eq_of_mem member otherMember]
  rw [← toFinset_card_of_nodup single.nodup]
  exact Finset.card_le_one.mpr (by simpa using same)

theorem not_delivered (early : (conversation.phase call).taken = false) :
    call ∉ conversation.delivered := by
  intro member
  rw [((single.calls call).taken member).1] at early
  cases early

/-- A call moves on, while the entries and the deliveries of the other calls
stay. -/
theorem step (phase : after.phase = (conversation.move call new).phase)
    (keyed : ∀ row ∈ after.log, row.clientKey = some key) (short : after.log.length ≤ 1)
    (rows : ∀ row, row.author ≠ call → (row ∈ after.log ↔ row ∈ conversation.log))
    (deliveries : ∀ other, other ≠ call →
      (other ∈ after.delivered ↔ other ∈ conversation.delivered))
    (own : Accounts after.log after.delivered call new) (nodup : after.delivered.Nodup) :
    Single key after := by
  refine ⟨keyed, short, ?_, nodup⟩
  intro other
  rw [phase]
  by_cases same : other = call
  · rw [same, move_phase_self]
    exact own
  · rw [move_phase_of_ne _ same]
    have accounts := single.calls other
    refine ⟨?_, ?_, accounts.foreign, ?_, ?_⟩
    · intro entry isOpen
      obtain ⟨row, member, isRow, author⟩ := accounts.opened entry isOpen
      exact ⟨row, (rows row (author ▸ same)).mpr member, isRow, author⟩
    · intro row member author
      rw [deliveries other same]
      exact accounts.authored row ((rows row (author ▸ same)).mp member) author
    · intro member
      obtain ⟨isTaken, row, stored, author⟩ := accounts.taken ((deliveries other same).mp member)
      exact ⟨isTaken, row, (rows row (author ▸ same)).mpr stored, author⟩
    · intro entry answered
      exact (deliveries other same).mpr (accounts.confirmed entry answered)

theorem moved (early : (conversation.phase call).taken = false)
    (sameOpen : new.opened = (conversation.phase call).opened)
    (foreign : ∀ row, new.saw = some row → row.author ≠ call)
    (unconfirmed : ∀ entry, new ≠ .answered entry true) :
    Single key (conversation.move call new) := by
  have accounts := single.calls call
  refine single.step rfl single.keyed single.atMostOne (fun _ _ => .rfl) (fun _ _ => .rfl) ?_
    single.nodup
  exact
    { opened := sameOpen ▸ accounts.opened
      authored := sameOpen ▸ accounts.authored
      foreign := foreign
      taken := fun member => absurd member (single.not_delivered early)
      confirmed := fun entry isNew => absurd isNew (unconfirmed entry) }

end

theorem check_phase {request : Request} {status : SessionStatus}
    (hasEntry : request.hasEntry = true) :
    (check request status).opened = none ∧ (check request status).saw = none ∧
      (∀ entry, check request status ≠ .answered entry true) ∧
      ∀ entry, check request status ≠ .returned entry := by
  unfold check afterCheck
  rw [hasEntry]
  split
  · simp [Phase.opened, Phase.saw]
  · rw [if_pos rfl]
    split <;> simp [Phase.opened, Phase.saw]

variable {entry : Option LogRow}

section

variable (single : Single key conversation)
include single

theorem confirm (here : conversation.phase call = .answered entry true) :
    Single key (conversation.move call (.returned entry)) := by
  have delivered := (single.calls call).confirmed entry here
  exact single.step rfl single.keyed single.atMostOne (fun _ _ => .rfl) (fun _ _ => .rfl)
    ⟨nofun, fun _ _ _ => .inr delivered, nofun,
      fun member => ⟨rfl, ((single.calls call).taken member).2⟩, nofun⟩ single.nodup

/-- A call that has not been answered moves on without looking at the log. -/
theorem moved_blind {old : Phase} (here : conversation.phase call = old)
    (early : old.taken = false) (sameOpen : new.opened = old.opened)
    (blind : new.saw = none) (unconfirmed : ∀ entry, new ≠ .answered entry true) :
    Single key (conversation.move call new) := by
  subst here
  apply single.moved early sameOpen _ unconfirmed
  simp [blind]

theorem settle_own {row : LogRow} (here : conversation.phase call = .inserted row) :
    settle call row = .marking (some row) := by
  obtain ⟨stored, _, isRow, author⟩ := (single.calls call).opened (some row) (by rw [here]; rfl)
  cases isRow
  exact if_pos author

theorem settle_other {row : LogRow} (here : conversation.phase call = .reread (some row)) :
    settle call row = .returned (some row) :=
  if_neg ((single.calls call).foreign row (by rw [here]; rfl))

theorem quiet {request : Request} (hasEntry : request.hasEntry = true)
    (step : Quiet request conversation call (conversation.phase call) new) :
    Single key (conversation.move call new) := by
  generalize here : conversation.phase call = old at step
  cases step with
  | precheck _ _ | recheck | reread =>
    have early : (conversation.phase call).taken = false := by
      rw [here]
      rfl
    apply single.moved early _ _ (by simp)
    · rw [here]
      rfl
    · -- the row that was found is not its own
      rintro row saw rfl
      rcases (single.calls row.author).authored row (mem_of_lookUp saw).1 rfl with
        isOpen | delivered
      · rw [here] at isOpen
        cases isOpen
      · exact single.not_delivered early delivered
  | checkAtOnce _ | check =>
    obtain ⟨closed, blind, unanswered, _⟩ := check_phase hasEntry
    exact single.moved_blind here rfl closed blind unanswered
  | hit _ | hitAgain _ | miss | conflict _ | gone =>
    exact single.moved_blind here rfl rfl rfl (by simp)
  | settle row =>
    rw [single.settle_own here]
    exact single.moved_blind here rfl rfl rfl (by simp)
  | settleOther row =>
    rw [single.settle_other here]
    exact single.moved_blind here rfl rfl rfl (by simp)
  | confirm entry => exact single.confirm here

theorem log_empty (free : conflicts conversation (some key) = false) : conversation.log = [] := by
  apply eq_nil_iff_forall_not_mem.mpr
  intro row member
  have missing := Option.isSome_eq_false_iff.mp free
  have unfound := find?_eq_none.mp (Option.isNone_iff_eq_none.mp missing)
  exact unfound row member (decide_eq_true (single.keyed row member))

theorem delivered_empty (empty : conversation.log = []) : conversation.delivered = [] := by
  apply eq_nil_iff_forall_not_mem.mpr
  intro call member
  obtain ⟨_, row, rowMember, _⟩ := (single.calls call).taken member
  rw [empty] at rowMember
  cases rowMember

theorem insert (free : conflicts conversation (some key) = false)
    (phase : after.phase = (conversation.move call (.inserted
      (conversation.newRow call (some key)))).phase)
    (log : after.log = conversation.log ++ [conversation.newRow call (some key)])
    (delivered : after.delivered = conversation.delivered) :
    Single key after := by
  have empty := single.log_empty free
  have none := single.delivered_empty empty
  rw [empty, nil_append] at log
  rw [none] at delivered
  have added : conversation.newRow call (some key) ∈ after.log := by
    rw [log]
    exact mem_singleton_self _
  refine single.step phase ?_ (by rw [log]; exact Nat.le_refl 1) ?_ (by simp [delivered, none])
    ⟨?_, ?_, nofun, by simp [delivered], nofun⟩ (by simp [delivered])
  · intro row member
    rw [log, mem_singleton] at member
    rw [member]
    rfl
  · intro row foreign
    rw [log, mem_singleton, empty]
    constructor
    · intro isRow
      exact absurd (isRow ▸ rfl) foreign
    · intro member
      cases member
  · intro entry isOpen
    cases isOpen
    exact ⟨_, added, rfl, rfl⟩
  · intro row member _
    rw [log, mem_singleton] at member
    rw [member]
    exact .inl rfl

theorem notice (here : conversation.phase call = .answered entry false) :
    Single key (conversation.move call (afterFailure entry)) := by
  obtain ⟨row, _, isRow, _⟩ := (single.calls call).opened entry (by rw [here]; rfl)
  subst isRow
  exact single.moved_blind here rfl rfl rfl (by simp [afterFailure])

theorem withdraw {row : LogRow} (here : conversation.phase call = .undelivered row)
    (phase : after.phase = (conversation.move call .failed).phase) (log : after.log =
      conversation.log.filter (fun stored => stored.seq ≠ row.seq))
    (delivered : after.delivered = conversation.delivered) :
    Single key after := by
  obtain ⟨stored, member, isRow, author⟩ :=
    (single.calls call).opened (some row) (by rw [here]; rfl)
  cases isRow
  have empty : after.log = [] := by
    rw [log]
    apply filter_eq_nil_iff.mpr
    intro other otherMember
    rw [single.eq_of_mem otherMember member]
    simp
  have undelivered : call ∉ after.delivered := by
    rw [delivered]
    exact single.not_delivered (by rw [here]; rfl)
  refine single.step phase (by simp [empty]) (by simp [empty]) ?_ (by simp [delivered])
    ⟨nofun, by simp [empty], nofun, fun member => absurd member undelivered, nofun⟩
    (delivered ▸ single.nodup)
  intro other foreign
  rw [empty]
  constructor
  · intro member
    cases member
  · intro otherMember
    rw [single.eq_of_mem otherMember member] at foreign
    exact absurd author foreign

theorem deliver (here : conversation.phase call = .delivering entry) (phase : after.phase =
      (conversation.move call (.answered entry true)).phase)
    (log : after.log = conversation.log)
    (delivered : after.delivered = conversation.delivered ++ [call]) :
    Single key after := by
  obtain ⟨row, member, isRow, author⟩ := (single.calls call).opened entry (by rw [here]; rfl)
  subst isRow
  have undelivered : call ∉ conversation.delivered := single.not_delivered (by rw [here]; rfl)
  have now : call ∈ after.delivered := by simp [delivered]
  refine single.step phase (log ▸ single.keyed) (log ▸ single.atMostOne) (by simp [log]) ?_
    ⟨?_, fun _ _ _ => .inr now, nofun, fun _ => ⟨rfl, row, log ▸ member, author⟩,
      fun _ _ => now⟩ ?_
  · intro other different
    simp [delivered, different]
  · intro entry isOpen
    cases isOpen
    exact ⟨row, log ▸ member, rfl, author⟩
  · rw [delivered, ← concat_eq_append]
    exact single.nodup.concat undelivered

theorem preserved {request : CallId → Request} (sameKey : SameKey request key)
    {event : Event} (step : Change request conversation event after) :
    Single key after := by
  cases step with
  | quiet step => exact single.quiet (sameKey _).1 step
  | insert here free =>
    rw [(sameKey _).2] at free ⊢
    exact single.insert free rfl rfl rfl
  | @handOver call entry here =>
    have moved : Single key (conversation.move call (.delivering entry)) :=
      single.moved_blind here rfl rfl rfl (by simp)
    exact { moved with }
  | notice here => exact { single.notice here with }
  | withdraw here => exact single.withdraw here rfl rfl rfl
  | deliver here => exact single.deliver here rfl rfl rfl
  | @refuse call entry here =>
    have moved : Single key (conversation.move call (.answered entry false)) :=
      single.moved_blind here rfl rfl rfl (by simp)
    exact { moved with }
  | finish unfinished delivered => exact { single with }

end

end Single

theorem single_invariant {request : CallId → Request} {key : String}
    (sameKey : SameKey request key) : (messageSystem request).Invariant (Single key) :=
  { initially := by
      intro conversation isInitial
      obtain ⟨status, same⟩ := isInitial
      rw [same]
      exact Single.initially status
    preserved := fun _ _ _ single step => single.preserved sameKey (next_change step) }

/-! ## Retries that look at a settled log -/

/-- A call reads the log only when the entry it finds, if it finds one, is
that of a delivered prompt. -/
def ReadsDelivered (request : CallId → Request) (conversation : Conversation) : Event → Prop
  | .advance call => (conversation.phase call).reads = true →
      ∀ row, conversation.lookUp (request call).clientKey = some row →
        row.author ∈ conversation.delivered
  | _ => True

instance (request : CallId → Request) (conversation : Conversation) (event : Event) :
    Decidable (ReadsDelivered request conversation event) :=
  match event with
  | .advance call => inferInstanceAs (Decidable
      ((conversation.phase call).reads = true →
        ∀ row ∈ conversation.lookUp (request call).clientKey, row.author ∈ conversation.delivered))
  | .answer _ _ => .isTrue trivial
  | .finalize _ => .isTrue trivial

/-- The entry is in the log and its prompt was delivered. -/
def Delivered (conversation : Conversation) (row : LogRow) : Prop :=
  row ∈ conversation.log ∧ row.author ∈ conversation.delivered

/-- What a call in a phase has found or returned. -/
structure Shows (phase : Phase) (holds : LogRow → Prop) : Prop where
  saw : ∀ row, phase.saw = some row → holds row
  returned : ∀ entry, phase = .returned entry → ∃ row, entry = some row ∧ holds row

/-- What the calls have found or returned was delivered. -/
def Kept (conversation : Conversation) : Prop :=
  ∀ call, Shows (conversation.phase call) (Delivered conversation)

namespace Kept

variable {key : String} {conversation : Conversation}

theorem initially (status : SessionStatus) : Kept (SendMessage.initially status) :=
  fun _ => ⟨nofun, nofun⟩

theorem moved (kept : Kept conversation) {call : CallId} {new : Phase} {after : Conversation}
    (phase : after.phase = (conversation.move call new).phase)
    (stays : ∀ row, Delivered conversation row → Delivered after row)
    (own : Shows new (Delivered after)) : Kept after := by
  intro other
  rw [phase]
  by_cases same : other = call
  · rw [same, move_phase_self]
    exact own
  · rw [move_phase_of_ne _ same]
    refine ⟨fun row seen => stays row ((kept other).saw row seen), ?_⟩
    intro entry here
    obtain ⟨row, isRow, delivered⟩ := (kept other).returned entry here
    exact ⟨row, isRow, stays row delivered⟩

theorem quiet (kept : Kept conversation) (single : Single key conversation)
    {request : Request} {call : CallId} {new : Phase} (hasEntry : request.hasEntry = true)
    (delivered : (conversation.phase call).reads = true →
      ∀ row, conversation.lookUp request.clientKey = some row → row.author ∈ conversation.delivered)
    (step : Quiet request conversation call (conversation.phase call) new) :
    Kept (conversation.move call new) := by
  refine kept.moved rfl (fun _ => id) (?_ : Shows new (Delivered conversation))
  generalize here : conversation.phase call = old at step delivered
  have returning : ∀ row, Delivered conversation row →
      Shows (.returned (some row)) (Delivered conversation) := by
    intro row isDelivered
    refine ⟨nofun, ?_⟩
    intro entry isReturned
    cases isReturned
    exact ⟨row, rfl, isDelivered⟩
  cases step with
  | precheck _ _ | recheck | reread =>
    exact ⟨fun row found => ⟨(mem_of_lookUp found).1, delivered rfl row found⟩, nofun⟩
  | checkAtOnce _ | check =>
    obtain ⟨_, blind, _, unreturned⟩ := Single.check_phase hasEntry
    exact ⟨by simp [blind], fun entry isReturned => absurd isReturned (unreturned entry)⟩
  | hit row | hitAgain row => exact returning row ((kept call).saw row (by rw [here]; rfl))
  | miss | conflict _ | gone => exact ⟨nofun, nofun⟩
  | settle row =>
    rw [single.settle_own here]
    exact ⟨nofun, nofun⟩
  | settleOther row =>
    rw [single.settle_other here]
    exact returning row ((kept call).saw row (by rw [here]; rfl))
  | confirm entry =>
    obtain ⟨row, member, isRow, author⟩ := (single.calls call).opened entry (by rw [here]; rfl)
    subst isRow
    exact returning row ⟨member, author ▸ (single.calls call).confirmed _ here⟩

theorem preserved {request : CallId → Request} (sameKey : SameKey request key)
    {event : Event} {after : Conversation} (kept : Kept conversation)
    (single : Single key conversation) (settled : ReadsDelivered request conversation event)
    (step : Change request conversation event after) : Kept after := by
  cases step with
  | quiet step => exact kept.quiet single (sameKey _).1 settled step
  | insert here free =>
    refine kept.moved rfl ?_ ⟨nofun, nofun⟩
    intro row delivered
    exact ⟨mem_append_left _ delivered.1, delivered.2⟩
  | handOver here | refuse here => exact kept.moved rfl (fun _ => id) ⟨nofun, nofun⟩
  | @notice call entry here =>
    refine kept.moved rfl (fun _ => id) ?_
    cases entry <;> exact ⟨nofun, nofun⟩
  | @withdraw call row here =>
    obtain ⟨stored, member, _, author⟩ := (single.calls call).opened (some row) (by rw [here]; rfl)
    refine kept.moved rfl ?_ ⟨nofun, nofun⟩
    intro other delivered
    have undelivered : call ∉ conversation.delivered := single.not_delivered (by rw [here]; rfl)
    have sameAuthor : other.author = call := by
      rw [single.eq_of_mem delivered.1 member, author]
    exact absurd (sameAuthor ▸ delivered.2) undelivered
  | deliver here =>
    refine kept.moved rfl ?_ ⟨nofun, nofun⟩
    intro row delivered
    exact ⟨delivered.1, mem_append_left _ delivered.2⟩
  | finish unfinished delivered => exact kept

end Kept

theorem kept_invariant {request : CallId → Request} {key : String} (sameKey : SameKey request key) :
    ((messageSystem request).restrict (ReadsDelivered request)).Invariant
      (fun conversation => Single key conversation ∧ Kept conversation) :=
  { initially := by
      intro conversation isInitial
      obtain ⟨status, same⟩ := isInitial
      rw [same]
      exact ⟨Single.initially status, Kept.initially status⟩
    preserved := by
      intro before event after holds step
      obtain ⟨single, kept⟩ := holds
      obtain ⟨settled, stepped⟩ := step
      have change := next_change stepped
      exact ⟨single.preserved sameKey change, kept.preserved sameKey single settled change⟩ }

/-- A prompt is delivered at most once.  Where no call reads the log while the
delivery of the entry it would find is open, every entry that is returned is
in the log and was delivered. -/
theorem accepted_means_delivered {request : CallId → Request} {key : String}
    (sameKey : SameKey request key) :
    (∀ conversation, (messageSystem request).Reachable conversation →
      conversation.delivered.length ≤ 1) ∧
    ∀ conversation, ((messageSystem request).restrict
        (ReadsDelivered request)).Reachable conversation →
      ∀ call entry, conversation.phase call = .returned entry →
        ∃ row, entry = some row ∧ row ∈ conversation.log ∧ row.author ∈ conversation.delivered := by
  constructor
  · intro conversation reachable
    exact ((single_invariant sameKey).reachable reachable).delivered_le_one
  · intro conversation reachable call entry here
    exact (((kept_invariant sameKey).reachable reachable).2 call).returned entry here

/-! ## Two calls with one key -/

def retriedRequest (_ : CallId) : Request :=
  { hasEntry := true
    clientKey := some "key" }

theorem retriedRequest_sameKey : SameKey retriedRequest "key" :=
  fun _ => ⟨rfl, rfl⟩

/-- The second call comes when the prompt of the first was delivered. -/
def retryAfterDelivery : List Event :=
  [.advance 0, .advance 0, .advance 0, .advance 0, .advance 0, .advance 0,
    .advance 0, .answer 0 true, .advance 1, .advance 1]

theorem retried_message_is_delivered : ∃ conversation entry,
      ((messageSystem retriedRequest).restrict
        (ReadsDelivered retriedRequest)).Reachable conversation ∧
      conversation.phase 1 = .returned entry ∧
      ∃ row, entry = some row ∧ row ∈ conversation.log ∧ row.author ∈ conversation.delivered := by
  have ran : (retryAfterDelivery.foldlM (fun conversation event =>
      if ReadsDelivered retriedRequest conversation event then
        next retriedRequest conversation event
      else none) (initially .idle)).map (fun conversation => conversation.phase 1) =
      some (.returned (some ⟨0, 0, some "key"⟩)) := by
    decide +kernel
  obtain ⟨conversation, reached, returned⟩ := Option.map_eq_some_iff.mp ran
  have reachable : ((messageSystem retriedRequest).restrict
      (ReadsDelivered retriedRequest)).Reachable conversation := by
    refine ⟨initially .idle, retryAfterDelivery, ⟨.idle, rfl⟩, ?_⟩
    apply TransitionSystem.Run.of_foldlM _ reached
    intro state event target step
    exact Option.ite_none_right_eq_some.mp step
  exact ⟨conversation, _, reachable, returned,
    (accepted_means_delivered retriedRequest_sameKey).2 conversation reachable 1 _ returned⟩

/-- The second call finds the entry of the first and returns it; then the
delivery of the first fails. -/
def retryDuringDelivery : List Event :=
  [.advance 0, .advance 0, .advance 0, .advance 0, .advance 0, .advance 0,
    .advance 0, .advance 1, .advance 1, .answer 0 false, .advance 0,
    .advance 0]

theorem retry_returns_withdrawn_entry : ∃ request key conversation, SameKey request key ∧
      (messageSystem request).Reachable conversation ∧
      ∃ call row, conversation.phase call = .returned (some row) ∧
        row ∉ conversation.log ∧ row.author ∉ conversation.delivered ∧
        conversation.phase row.author = .failed := by
  have ran : (retryDuringDelivery.foldlM (next retriedRequest)
      (initially .idle)).map (fun conversation =>
        (conversation.phase 1, conversation.log, conversation.delivered, conversation.phase 0)) =
      some (.returned (some ⟨0, 0, some "key"⟩), [], [], .failed) := by
    decide +kernel
  obtain ⟨conversation, reached, observed⟩ := Option.map_eq_some_iff.mp ran
  obtain ⟨returned, log, delivered, failed⟩ :
      conversation.phase 1 = .returned (some ⟨0, 0, some "key"⟩) ∧
      conversation.log = [] ∧ conversation.delivered = [] ∧
      conversation.phase 0 = .failed := by
    simpa using observed
  refine ⟨retriedRequest, "key", conversation, retriedRequest_sameKey,
    ⟨initially .idle, retryDuringDelivery, ⟨.idle, rfl⟩,
      TransitionSystem.Run.of_foldlM (fun _ _ _ step => step) reached⟩,
    1, ⟨0, 0, some "key"⟩, returned, ?_, ?_, failed⟩
  · rw [log]
    exact not_mem_nil
  · rw [delivered]
    exact not_mem_nil

end SendMessage

end MatrixSpooll.Session
