import MatrixSpooll.Session.EntryWriters

/-!
# One turn after the other

What the writers keep when a call checks the status only while no other call
is on its way to the actor, and the inbox task takes up a turn only once the
entry of its call was broadcast: the work that is left belongs to one turn,
and entries are broadcast in the order of their numbers.
-/

namespace MatrixSpooll.Session

namespace EntryStream

open Writers List Worker

/-- A call checks the status only while no other call is between its check and
its hand-over; a turn is taken up only when its call has broadcast its
entry. -/
def Prompt (writers : Writers) : WriterEvent → Prop
  | .check call => ∀ other, other ≠ call →
      (writers.calls other).entering = false
  | .take => ∀ item rest, writers.inbox = item :: rest →
      (writers.calls item.turn).held = none
  | _ => True

def Ascending (log : List Entry) : Prop :=
  log.Pairwise (fun first second => first.seq < second.seq)

/-- What a call in a phase says about the session. -/
structure Fits (log : List Entry) (status : SessionStatus) (item : Option Item)
    (work : List Work) (call : Turn) (phase : CallPhase) : Prop where
  entering : phase.entering = true → work = [] ∧ status ≠ .running
  delivering : phase.delivering = true → status = .running ∧ item = none ∧ OneTurn call work
  held : ∀ entry, phase.held = some entry → entry ∈ log ∧ entry.turn = call

/-- At most one call is open and one turn is worked on. -/
structure Serial (writers : Writers) : Prop where
  sorted : Ascending writers.log
  alone : ∀ first second, (writers.calls first).isOpen = true →
    (writers.calls second).isOpen = true → first = second
  fits : ∀ call, Fits writers.log writers.status writers.worker.item? writers.work call
    (writers.calls call)
  stored : ∀ entry ∈ writers.worker.held, entry ∈ writers.log
  numbered : Ascending writers.worker.held
  batch : ∀ item, writers.worker.item? = some item →
    ∀ entry ∈ writers.worker.held, entry.turn = item.turn
  oneTurn : writers.work = [] ∨ writers.status = .running ∧ ∃ turn, OneTurn turn writers.work
  passed : ∀ work ∈ writers.work, (writers.calls work.1).passed = true
  settled : ∀ turn, writers.statusTurn = some turn →
    (writers.calls turn).passed = true
  closing : ∀ turn, writers.worker = .closing turn →
    writers.Finished turn ∧ (writers.calls turn).held = none

theorem setCall_calls (writers : Writers) (call : Turn) (phase : CallPhase) (other : Turn) :
    (other = call ∧ (writers.setCall call phase).calls other = phase) ∨
      (other ≠ call ∧ (writers.setCall call phase).calls other = writers.calls other) := by
  by_cases same : other = call
  · left
    subst same
    exact ⟨rfl, Function.update_self ..⟩
  · right
    exact ⟨same, Function.update_of_ne same ..⟩

theorem setCall_passed {writers : Writers} {call : Turn} {phase : CallPhase}
    (passed : (writers.calls call).passed = true → phase.passed = true)
    (turn : Turn) (before : (writers.calls turn).passed = true) :
    ((writers.setCall call phase).calls turn).passed = true := by
  rcases setCall_calls writers call phase turn with
    ⟨same, here⟩ | ⟨_, here⟩ <;> rw [here]
  · exact passed (same ▸ before)
  · exact before

theorem CallPhase.isOpen_of_held {phase : CallPhase} {entry : Entry}
    (held : phase.held = some entry) : phase.isOpen = true := by
  cases phase <;> simp_all [CallPhase.held, CallPhase.isOpen,
    CallPhase.entering, CallPhase.delivering]

theorem CallPhase.held_none_of_closed {phase : CallPhase}
    (closed : phase.isOpen = false) : phase.held = none := by
  cases held : phase.held with
  | none => rfl
  | some entry => simp [CallPhase.isOpen_of_held held] at closed

theorem Worker.held_of_item? {worker : Worker} (free : worker.item? = none) : worker.held = [] := by
  cases worker <;> simp_all [item?, held]

theorem lt_nextSeq {writers : Writers} {entry : Entry}
    (member : entry ∈ writers.log) : entry.seq < writers.nextSeq := by
  unfold nextSeq
  generalize writers.log = log at member ⊢
  induction log with
  | nil => cases member
  | cons head log induction =>
    simp only [map_cons, foldr_cons]
    rcases mem_cons.mp member with same | later
    · subst same
      omega
    · have := induction later
      omega

theorem newEntries_spec (writers : Writers) (turn : Turn) (count : Nat) :
    Ascending (writers.newEntries turn count) ∧ ∀ entry ∈ writers.newEntries turn count,
        writers.nextSeq ≤ entry.seq ∧ entry.turn = turn := by
  constructor
  · unfold Ascending newEntries
    rw [pairwise_map]
    apply pairwise_lt_range.imp
    intro first second less
    simp only
    omega
  · intro entry member
    obtain ⟨offset, _, same⟩ := mem_map.mp member
    subst same
    exact ⟨Nat.le_add_right _ _, rfl⟩

theorem ascending_append {writers : Writers} (sorted : Ascending writers.log)
    (turn : Turn) (count : Nat) :
    Ascending (writers.log ++ writers.newEntries turn count) := by
  obtain ⟨ascending, new⟩ := newEntries_spec writers turn count
  apply pairwise_append.mpr
  refine ⟨sorted, ascending, ?_⟩
  intro first member second isNew
  exact Nat.lt_of_lt_of_le (lt_nextSeq member) (new second isNew).1

namespace Serial

variable {writers : Writers}

theorem work_of_item {item : Item} (working : writers.worker.item? = some item) :
    writers.work = item.work :: writers.queued := by
  simp [Writers.work, working]

theorem fresh (fresh : writers.Fresh) : Serial writers := by
  obtain ⟨sorted, statusTurn, calls, queries, answering, inbox, worker⟩ := fresh
  have work : writers.work = [] := by
    simp [Writers.work, queued, queries, answering, inbox, worker, item?]
  have closed : ∀ call, writers.calls call = .start := fun call => congrFun calls call
  constructor
  case fits =>
    intro call
    rw [closed call]
    exact ⟨nofun, nofun, nofun⟩
  all_goals
    simp_all [CallPhase.isOpen, CallPhase.entering, CallPhase.delivering, held, item?, Ascending]

theorem fits_of_closed {log : List Entry} {status : SessionStatus} {item : Option Item}
    {work : List Work} {call : Turn} {phase : CallPhase} (closed : phase.isOpen = false) :
    Fits log status item work call phase := by
  have unheld := CallPhase.held_none_of_closed closed
  have outside := Bool.or_eq_false_iff.mp closed
  exact ⟨by simp [outside.1], by simp [outside.2], by simp [unheld]⟩

/-- Where no call is open, the inbox task and the work are left to show. -/
theorem of_closed (closed : ∀ call, (writers.calls call).isOpen = false)
    (sorted : Ascending writers.log) (stored : Ascending writers.worker.held ∧
      ∀ entry ∈ writers.worker.held, entry ∈ writers.log)
    (batch : ∀ item, writers.worker.item? = some item →
      ∀ entry ∈ writers.worker.held, entry.turn = item.turn)
    (oneTurn : writers.work = [] ∨ writers.status = .running ∧ ∃ turn, OneTurn turn writers.work)
    (passed : ∀ work ∈ writers.work, (writers.calls work.1).passed = true)
    (settled : ∀ turn, writers.statusTurn = some turn → (writers.calls turn).passed = true)
    (closing : ∀ turn, writers.worker = .closing turn → writers.Finished turn) :
    Serial writers :=
  { sorted := sorted
    alone := by simp [closed]
    fits := fun call => fits_of_closed (closed call)
    stored := stored.2
    numbered := stored.1
    batch := batch
    oneTurn := oneTurn
    passed := passed
    settled := settled
    closing := fun turn isClosing =>
      ⟨closing turn isClosing, CallPhase.held_none_of_closed (closed turn)⟩ }

section

variable (serial : Serial writers)
include serial

theorem logged (entry : Entry) (waits : writers.Waits entry) : entry ∈ writers.log := by
  rcases waits with ⟨call, held⟩ | stored
  · exact ((serial.fits call).held entry held).1
  · exact serial.stored entry stored

/-- Where there is work, the only open call is one that delivers it. -/
theorem closed_of_work {work : Work} {rest : List Work}
    (left : writers.work = work :: rest) {call : Turn}
    (undelivered : (writers.calls call).delivering = true →
      writers.worker.item? = none → work.1 = call → False) :
    (writers.calls call).isOpen = false := by
  apply Bool.eq_false_iff.mpr
  intro isOpen
  rcases Bool.or_eq_true_iff.mp isOpen with entering | delivering
  · have none := ((serial.fits call).entering entering).1
    rw [left] at none
    cases none
  · obtain ⟨_, free, one⟩ := (serial.fits call).delivering delivering
    rw [left] at one
    exact undelivered delivering free (one.turn_of_mem work mem_cons_self)

theorem closed_of_item {item : Item} (working : writers.worker.item? = some item) (call : Turn) :
    (writers.calls call).isOpen = false := by
  apply serial.closed_of_work (work_of_item working)
  intro _ free
  rw [working] at free
  cases free

theorem idle_of_work {turn : Turn} (one : OneTurn turn writers.work) :
    writers.status = .running := by
  rcases serial.oneTurn with none | ⟨isRunning, _⟩
  · rw [none] at one
    cases one
  · exact isRunning

theorem setCall {call : Turn} {phase : CallPhase}
    (alone : phase.isOpen = true → ∀ other, other ≠ call →
      (writers.calls other).isOpen = false)
    (fits : Fits writers.log writers.status writers.worker.item? writers.work call phase)
    (passed : (writers.calls call).passed = true → phase.passed = true)
    (closing : writers.worker = .closing call → phase.held = none) :
    Serial (writers.setCall call phase) := by
  have passes := setCall_passed passed
  refine
    { serial with
      alone := ?_
      fits := (Function.forall_update_iff writers.calls (Fits writers.log writers.status
        writers.worker.item? writers.work)).mpr ⟨fits, fun other _ => serial.fits other⟩
      passed := fun work member => passes _ (serial.passed work member)
      settled := fun turn isTurn => passes _ (serial.settled turn isTurn)
      closing := ?_ }
  · intro first second firstOpen secondOpen
    rcases setCall_calls writers call phase first with ⟨isFirst, here⟩ | ⟨notFirst, here⟩ <;>
      rcases setCall_calls writers call phase second with
        ⟨isSecond, there⟩ | ⟨notSecond, there⟩ <;>
      rw [here] at firstOpen <;> rw [there] at secondOpen
    · rw [isFirst, isSecond]
    · simp [alone firstOpen second notSecond] at secondOpen
    · simp [alone secondOpen first notFirst] at firstOpen
    · exact serial.alone first second firstOpen secondOpen
  · intro turn isClosing
    obtain ⟨finished, unheld⟩ := serial.closing turn isClosing
    refine ⟨⟨passes turn finished.1, finished.2⟩, ?_⟩
    rcases setCall_calls writers call phase turn with ⟨same, here⟩ | ⟨_, here⟩ <;> rw [here]
    · exact closing (same ▸ isClosing)
    · exact unheld

theorem close {call : Turn} {phase : CallPhase} (closed : phase.isOpen = false)
    (passed : (writers.calls call).passed = true → phase.passed = true) :
    Serial (writers.setCall call phase) :=
  serial.setCall (by simp [closed]) (fits_of_closed closed) passed
    (fun _ => CallPhase.held_none_of_closed closed)

theorem grow {added : List Entry} (sorted : Ascending (writers.log ++ added)) :
    Serial { writers with log := writers.log ++ added } :=
  { serial with
    sorted := sorted
    fits := fun call =>
      { serial.fits call with
        held := fun entry held =>
          ⟨mem_append_left _ ((serial.fits call).held entry held).1,
            ((serial.fits call).held entry held).2⟩ }
    stored := fun entry held => mem_append_left _ (serial.stored entry held) }

theorem rework {after : Writers} {turn : Turn} (log : after.log = writers.log)
    (status : after.status = writers.status) (statusTurn : after.statusTurn = writers.statusTurn)
    (calls : after.calls = writers.calls) (worker : after.worker = writers.worker)
    (before : OneTurn turn writers.work) (one : OneTurn turn after.work) :
    Serial after := by
  have nonempty : ∃ work ∈ writers.work, work.1 = turn := by
    cases work : writers.work with
    | nil =>
      rw [work] at before
      cases before
    | cons head rest =>
      exact ⟨head, mem_cons_self, (work ▸ before).turn_of_mem head mem_cons_self⟩
  obtain ⟨work, member, isTurn⟩ := nonempty
  have passed : (writers.calls turn).passed = true := isTurn ▸ serial.passed work member
  constructor
  · rw [log]
    exact serial.sorted
  · rw [calls]
    exact serial.alone
  · intro call
    have fits := serial.fits call
    rw [log, status, worker, calls]
    refine ⟨?_, ?_, fits.held⟩
    · intro entering
      rw [(fits.entering entering).1] at member
      cases member
    · intro delivering
      obtain ⟨isRunning, free, own⟩ := fits.delivering delivering
      exact ⟨isRunning, free, own.turn_of_mem work member ▸ isTurn ▸ one⟩
  · rw [log, worker]
    exact serial.stored
  · rw [worker]
    exact serial.numbered
  · rw [worker]
    exact serial.batch
  · rw [status]
    exact .inr ⟨serial.idle_of_work before, turn, one⟩
  · intro other otherMember
    rw [calls, one.turn_of_mem other otherMember]
    exact passed
  · rw [statusTurn, calls]
    exact serial.settled
  · intro other isClosing
    rw [worker] at isClosing
    obtain ⟨finished, unheld⟩ := serial.closing other isClosing
    rw [calls]
    refine ⟨⟨calls ▸ finished.1, ?_⟩, unheld⟩
    intro left leftMember
    rw [one.turn_of_mem left leftMember, ← isTurn]
    exact finished.2 work member

theorem others_closed {call : Turn} (isOpen : (writers.calls call).isOpen = true) (other : Turn)
    (different : other ≠ call) : (writers.calls other).isOpen = false := by
  apply Bool.eq_false_iff.mpr
  intro otherOpen
  exact different (serial.alone other call otherOpen isOpen)

/-- A turn is left by its calls: nothing of it waits for a broadcast but what
the inbox task holds. -/
theorem handOver {call : Turn} {entry : Entry} (here : writers.calls call = .appended entry) :
    Serial
      { writers.setCall call (.handed entry) with
        status := .running
        statusTurn := some call
        queries := writers.queries ++ [call] } := by
  obtain ⟨none, _⟩ := (serial.fits call).entering (by rw [here]; rfl)
  have free : writers.worker.item? = Option.none := by
    cases working : writers.worker.item? with
    | none => rfl
    | some item => simp [Writers.work, working] at none
  obtain ⟨noInbox, noAnswering, noQueries⟩ : writers.inbox = [] ∧ writers.answering = Option.none ∧
        writers.queries = [] := by
    simpa [Writers.work, queued, free] using none
  have others := serial.others_closed (show (writers.calls call).isOpen = true by rw [here]; rfl)
  have returned : Serial (writers.setCall call .returned) := serial.close rfl (fun _ => rfl)
  have passed : ((writers.setCall call .returned).calls call).passed = true := by
    simp [Writers.setCall, CallPhase.passed]
  have work : Writers.work
      { writers.setCall call .returned with
        status := .running
        statusTurn := some call
        queries := writers.queries ++ [call] } = [(call, true)] := by
    simp [Writers.work, queued, Writers.setCall, free, noInbox, noAnswering, noQueries]
  have begun : Serial
      { writers.setCall call .returned with
        status := .running
        statusTurn := some call
        queries := writers.queries ++ [call] } := by
    apply of_closed
    · exact (Function.forall_update_iff writers.calls fun _ now => now.isOpen = false).mpr
        ⟨rfl, others⟩
    · exact serial.sorted
    · exact ⟨serial.numbered, serial.stored⟩
    · exact serial.batch
    · exact .inr ⟨rfl, call, work ▸ .last⟩
    · rw [work, forall_mem_singleton]
      exact passed
    · intro turn isTurn
      cases isTurn
      exact passed
    · intro turn isClosing
      refine ⟨(returned.closing turn isClosing).1.1, ?_⟩
      rw [work, forall_mem_singleton]
      rintro rfl
      have before := (serial.closing call isClosing).1.1
      rw [here] at before
      cases before
  have handed : Serial (Writers.setCall
      { writers.setCall call .returned with
        status := .running
        statusTurn := some call
        queries := writers.queries ++ [call] } call (.handed entry)) := by
    have fits := serial.fits call
    rw [here] at fits
    refine begun.setCall ?_ ⟨nofun, fun _ => ⟨rfl, free, work ▸ .last⟩, fits.held⟩ (fun _ => rfl) ?_
    · intro _ other different
      simpa [Writers.setCall, different] using others other different
    · intro isClosing
      have before := (serial.closing call isClosing).2
      simp [here, CallPhase.held] at before
  simpa [Writers.setCall] using handed

end

end Serial

/-! ## The inbox task -/

/-- How the inbox task goes on with a message. -/
inductive Proceeds (before : Writers) (item : Item) : Writers → List Message → Prop where
  | store {count : Nat} {rest : List Nat} :
      Proceeds before item
        { before with
          worker := .storing { item with batches := rest } count } []
  | message : item.kind = .message →
      Proceeds before item { before with worker := .idle } []
  | result {status : SessionStatus} {messages : List Message} :
      (∃ outcome, item.kind = .result outcome) →
      messages = [] ∨ messages = [.turnComplete item.turn] →
      Proceeds before item
        { before.finalize item.turn status with worker := .idle } messages
  | exit : item.kind = .exit →
      Proceeds before item
        { before.finalize item.turn .error with
          worker := .closing item.turn } []

theorem proceed_proceeds (before : Writers) (item : Item) :
    Proceeds before item (before.proceed item).1 (before.proceed item).2 := by
  unfold proceed
  split
  · exact .store
  · split
    · next isMessage => exact .message isMessage
    · next outcome isResult => exact .result ⟨outcome, isResult⟩ (.inr rfl)
    · next isExit => exact .exit isExit

theorem giveUp_proceeds (before : Writers) (item : Item) :
    Proceeds before item (before.giveUp item) [] := by
  unfold giveUp proceed
  cases kind : item.kind with
  | message => exact .message kind
  | result outcome => exact .result ⟨outcome, kind⟩ (.inl rfl)
  | exit => exact .exit kind

namespace Proceeds

variable {before after : Writers} {item : Item} {messages : List Message} {turn : Turn}

theorem work_eq (proceeds : Proceeds before item after messages) :
    after.work = item.work :: before.queued ∨ after.work = before.queued := by
  cases proceeds with
  | store =>
    left
    simp [Writers.work, queued, item?, Item.work]
  | message | result | exit => exact .inr rfl

theorem queued_nil (one : OneTurn turn (item.work :: before.queued))
    (ends : item.kind.ends = true) : before.queued = [] := by
  unfold Item.work at one
  rw [ends] at one
  exact one.ends_here

theorem serial (proceeds : Proceeds before item after messages) (sorted : Ascending before.log)
    (closed : ∀ call, (before.calls call).isOpen = false) (isRunning : before.status = .running)
    (one : OneTurn turn (item.work :: before.queued)) (passed : (before.calls turn).passed = true)
    (settled : ∀ turn, before.statusTurn = some turn →
      (before.calls turn).passed = true) : Serial after := by
  have isTurn : item.turn = turn := one.turn_of_mem item.work mem_cons_self
  have workPassed : ∀ work ∈ after.work, (before.calls work.1).passed = true := by
    intro work member
    have inOne : work ∈ item.work :: before.queued := by
      rcases proceeds.work_eq with same | same
      · exact same ▸ member
      · exact mem_cons_of_mem _ (same ▸ member)
    rw [one.turn_of_mem work inOne]
    exact passed
  cases proceeds with
  | @store count rest =>
    have work : Writers.work { before with
        worker := .storing { item with batches := rest } count } =
        item.work :: before.queued := by
      simp [Writers.work, queued, item?, Item.work]
    refine Serial.of_closed closed sorted ?_ ?_ ?_ ?_ ?_ ?_ <;>
      simp_all [held, Ascending]
    · exact ⟨turn, one⟩
    · simpa [Item.work, isTurn] using passed
  | message isMessage =>
    have work : Writers.work { before with worker := .idle } = before.queued := rfl
    have rest : OneTurn turn before.queued := by
      unfold Item.work at one
      rw [isMessage] at one
      exact one.tail
    refine Serial.of_closed closed sorted ?_ ?_ ?_ ?_ ?_ ?_ <;>
      simp_all [held, item?, Ascending]
    exact .inr ⟨turn, rest⟩
  | @result status _ isResult =>
    obtain ⟨outcome, kind⟩ := isResult
    have nothing := queued_nil one (by rw [kind]; rfl)
    have work : Writers.work { before.finalize item.turn status with
        worker := .idle } = [] := nothing
    refine Serial.of_closed closed sorted ?_ ?_ ?_ ?_ ?_ ?_ <;>
      simp_all [held, item?, Ascending, finalize]
  | exit isExit =>
    have nothing := queued_nil one (by rw [isExit]; rfl)
    have work : Writers.work { before.finalize item.turn .error with
        worker := .closing item.turn } = [] := nothing
    refine Serial.of_closed closed sorted ?_ ?_ ?_ ?_ ?_ ?_ <;>
      simp_all [Writers.Finished, held, item?, Ascending, finalize]

end Proceeds

/-! ## Every step -/

theorem work_of_answering {writers : Writers} {turn : Turn}
    (answering : writers.answering = some turn) :
    writers.work = writers.worker.item?.toList.map Item.work ++
      writers.inbox.map Item.work ++ (turn, true) ::
        writers.queries.map (fun turn => (turn, true)) := by
  simp [Writers.work, queued, answering]

namespace Serial

variable {before after : Writers} {event : WriterEvent} {messages : List Message}

theorem of_answering (serial : Serial before) {turn : Turn}
    (answering : before.answering = some turn) :
    OneTurn turn before.work ∧ before.queries = [] := by
  have work := work_of_answering answering
  rcases serial.oneTurn with none | ⟨_, other, one⟩
  · simp [work] at none
  · obtain ⟨noQueries, same⟩ := one.end_eq work
    exact ⟨same ▸ one, by simpa using noQueries⟩

theorem of_work (serial : Serial before) {item : Item} {rest : List Work}
    (work : before.work = item.work :: rest) :
    before.status = .running ∧ (before.calls item.turn).passed = true ∧
      OneTurn item.turn (item.work :: rest) := by
  have passed := serial.passed item.work (by rw [work]; simp)
  rcases serial.oneTurn with none | ⟨isRunning, turn, one⟩
  · rw [work] at none
    cases none
  · have same : item.turn = turn := by
      rw [work] at one
      exact one.turn_of_mem item.work mem_cons_self
    exact ⟨isRunning, passed, by rw [same, ← work]; exact one⟩

theorem work_of_take {item : Item} {rest : List Item}
    (idle : before.worker = .idle) (inbox : before.inbox = item :: rest) :
    before.work = item.work :: Writers.queued { before with inbox := rest } :=
  by simp [Writers.work, queued, idle, inbox, item?]

theorem proceeds (serial : Serial before) {item : Item} (isItem : before.worker.item? = some item)
    (proceeds : Proceeds before item after messages) : Serial after := by
  obtain ⟨isRunning, passed, one⟩ := serial.of_work (work_of_item isItem)
  exact proceeds.serial serial.sorted (serial.closed_of_item isItem) isRunning
    one passed serial.settled

theorem closed_of_take (serial : Serial before) {item : Item} {rest : List Item}
    (idle : before.worker = .idle) (inbox : before.inbox = item :: rest)
    (unheld : (before.calls item.turn).held = none) (call : Turn) :
    (before.calls call).isOpen = false := by
  apply serial.closed_of_work (work_of_take idle inbox)
  intro delivering _ same
  rw [show item.turn = call from same] at unheld
  cases phase : before.calls call <;>
    simp_all [CallPhase.delivering, CallPhase.held]

theorem preserved (serial : Serial before) (prompt : Prompt before event)
    (change : Change before event after messages) : Serial after := by
  cases change with
  | @refuse call here isRunning => exact serial.close rfl (by simp [here, CallPhase.passed])
  | @pass call here ready =>
    have nothing : before.work = [] := by
      rcases serial.oneTurn with none | ⟨isRunning, _⟩
      · exact none
      · exact absurd isRunning ready
    refine serial.setCall ?_ ⟨fun _ => ⟨nothing, ready⟩, nofun, nofun⟩
      (by simp [here, CallPhase.passed]) (fun _ => rfl)
    intro _ other different
    apply Bool.or_eq_false_iff.mpr
    refine ⟨prompt other different, ?_⟩
    apply Bool.eq_false_iff.mpr
    intro delivering
    exact ready ((serial.fits other).delivering delivering).1
  | @append call here =>
    have grown := serial.grow (ascending_append serial.sorted call 1)
    have idle := (serial.fits call).entering (by rw [here]; rfl)
    refine grown.setCall ?_ ⟨fun _ => idle, nofun, ?_⟩ (by simp [here, CallPhase.passed]) ?_
    · intro _
      exact serial.others_closed (by rw [here]; rfl)
    · intro entry held
      cases held
      exact ⟨mem_append_right _ mem_cons_self, rfl⟩
    · intro isClosing
      have passed := (serial.closing call isClosing).1.1
      simp [here, CallPhase.passed] at passed
  | handOver here => exact serial.handOver here
  | @accept call rest entry queries answering here =>
    obtain ⟨isRunning, free, one⟩ := (serial.fits call).delivering (by rw [here]; rfl)
    have rearranged : Serial { before with
        queries := rest
        answering := some call } := by
      have work : Writers.work { before with
          queries := rest
          answering := some call } = before.work := by
        simp [Writers.work, queued, queries, answering]
      exact serial.rework rfl rfl rfl rfl rfl one (work ▸ one)
    have fits : Fits _ _ _ _ call (before.calls call) := rearranged.fits call
    rw [here] at fits
    refine rearranged.setCall ?_ ⟨nofun, fits.delivering, fits.held⟩ (fun _ => rfl) ?_
    · intro _
      exact serial.others_closed (by rw [here]; rfl)
    · intro isClosing
      have unheld := (serial.closing call isClosing).2
      simp [here, CallPhase.held] at unheld
  | announce here => exact serial.close rfl (fun _ => rfl)
  | @emit turn item count answering isTurn isMessage =>
    obtain ⟨one, noQueries⟩ := serial.of_answering answering
    refine serial.rework rfl rfl rfl rfl rfl one ?_
    have work := work_of_answering answering
    rw [noQueries, map_nil] at work
    have added := one.insert work
    simpa [Writers.work, queued, answering, noQueries, Item.work, isTurn,
      isMessage, Kind.ends] using added
  | @finish _ item _ _ _ answering isTurn ends
  | @crash _ item answering isTurn ends =>
    obtain ⟨one, noQueries⟩ := serial.of_answering answering
    refine serial.rework rfl rfl rfl rfl rfl one ?_
    rw [work_of_answering answering, noQueries] at one
    simpa [Writers.work, queued, noQueries, Item.work, isTurn, ends, Kind.ends] using one
  | @take item rest idle inbox =>
    obtain ⟨isRunning, passed, one⟩ := serial.of_work (work_of_take idle inbox)
    have closed := serial.closed_of_take idle inbox (prompt item rest inbox)
    exact (proceed_proceeds { before with inbox := rest } item).serial
      serial.sorted closed isRunning one passed serial.settled
  | @store item count working =>
    have closed := serial.closed_of_item (congrArg item? working)
    obtain ⟨ascending, new⟩ := newEntries_spec before item.turn count
    have work : Writers.work { before with
        log := before.log ++ before.newEntries item.turn count
        worker := .stored item (before.newEntries item.turn count) } =
        before.work := by
      simp [Writers.work, queued, working, item?]
    refine of_closed closed (ascending_append serial.sorted item.turn count)
      ⟨ascending, fun entry stored => mem_append_right _ stored⟩ ?_ ?_ ?_ serial.settled nofun
    · intro other isOther entry member
      cases isOther
      exact (new entry member).2
    · rw [work]
      exact serial.oneTurn
    · rw [work]
      exact serial.passed
  | @fail item count working =>
    exact serial.proceeds (congrArg item? working) (giveUp_proceeds before item)
  | @resume item entries working =>
    exact serial.proceeds (congrArg item? working) (proceed_proceeds before item)
  | @close turn working =>
    have work : Writers.work { before with worker := .ended } = before.work := by
      simp [Writers.work, queued, working, item?]
    refine
      { serial with
        fits := ?_
        stored := nofun
        numbered := Pairwise.nil
        batch := nofun
        oneTurn := ?_
        passed := ?_
        closing := nofun }
    · intro call
      rw [work]
      refine ⟨(serial.fits call).entering, ?_, (serial.fits call).held⟩
      intro delivering
      obtain ⟨isRunning, _, one⟩ := (serial.fits call).delivering delivering
      exact ⟨isRunning, rfl, one⟩
    · rw [work]
      exact serial.oneTurn
    · rw [work]
      exact serial.passed

end Serial

end EntryStream

end MatrixSpooll.Session
