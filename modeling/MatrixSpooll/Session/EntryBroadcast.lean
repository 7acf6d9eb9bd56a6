import MatrixSpooll.Session.EntryOrder

/-!
# What a step of a writer means for a reader

A step of a writer adds to the log and broadcasts.  `Progress` says how the
entries that wait for their broadcast, the turns that are finished and the
results that are on their way change with it.
-/

namespace MatrixSpooll.Session

namespace EntryStream

open Writers List CallPhase

structure Progress (before after : Writers) (messages : List Message) : Prop where
  grows : ∃ added, after.log = before.log ++ added ∧
    ∀ entry ∈ added, after.Waits entry ∧ ¬ before.Finished entry.turn
  waited : ∀ entry, before.Waits entry → after.Waits entry ∨ .entry entry ∈ messages
  old : ∀ entry, after.Waits entry → entry ∈ before.log → before.Waits entry
  sent : ∀ entry, .entry entry ∈ messages → before.Waits entry
  clears : ∀ entry, .entry entry ∈ messages → ∀ other, ¬ after.Waits other
  ascending : messages.Pairwise (fun first second => ∀ entry other,
    first = .entry entry → second = .entry other → entry.seq < other.seq)
  closes : ∀ message ∈ messages, ∀ turn, message.closes = some turn →
    after.Finished turn ∧ ∀ entry, after.Waits entry → entry.turn ≠ turn
  closesLast : messages.Pairwise (fun first _ => first.closes = none)
  passed : ∀ turn, (before.calls turn).passed = true →
    (after.calls turn).passed = true
  finished : ∀ turn, before.Finished turn → after.Finished turn
  results : ∀ turn, .result turn ∈ messages →
    (after.calls turn).passed = true ∧ ∀ other, after.ResultPending other → other = turn
  pending : ∀ turn, after.ResultPending turn → before.ResultPending turn ∨ .result turn ∈ messages
  completes : ∀ turn, .turnComplete turn ∈ messages →
    before.ResultPending turn ∧ ∀ other, .result other ∉ messages

theorem not_finished_of_mem {writers : Writers} {work : Work}
    (member : work ∈ writers.work) : ¬ writers.Finished work.1 := by
  intro finished
  exact finished.2 work member rfl

theorem setCall_waits {writers : Writers} {call : Turn} {phase : CallPhase}
    {entry : Entry} : (writers.setCall call phase).Waits entry ↔ phase.held = some entry ∨
        (∃ other, other ≠ call ∧ (writers.calls other).held = some entry) ∨
        entry ∈ writers.worker.held := by
  rw [← or_assoc]
  exact or_congr_left
    (Function.exists_update_iff writers.calls fun _ now => now.held = some entry)

namespace Progress

variable {before after : Writers} {event : WriterEvent} {messages : List Message}

/-- The log grows by entries that wait for their broadcast. -/
theorem of_growth {added : List Entry} (log : after.log = before.log ++ added)
    (waits : ∀ entry, after.Waits entry ↔ before.Waits entry ∨ entry ∈ added)
    (new : ∀ entry ∈ added, before.nextSeq ≤ entry.seq)
    (unfinished : ∀ entry ∈ added, ¬ before.Finished entry.turn)
    (passed : ∀ turn, (before.calls turn).passed = true →
      (after.calls turn).passed = true)
    (left : ∀ work ∈ after.work, work ∈ before.work ∨ (before.calls work.1).passed = false)
    (items : after.worker.item?.toList ++ after.inbox =
      before.worker.item?.toList ++ before.inbox) :
    Progress before after [] := by
  refine
    { grows := ⟨added, log, fun entry member =>
        ⟨(waits entry).mpr (.inr member), unfinished entry member⟩⟩
      waited := fun entry isWaiting => .inl ((waits entry).mpr (.inl isWaiting))
      old := ?_
      sent := by simp
      clears := by simp
      ascending := .nil
      closes := by simp
      closesLast := .nil
      passed := passed
      finished := ?_
      results := by simp
      pending := ?_
      completes := by simp }
  · intro entry isWaiting member
    rcases (waits entry).mp isWaiting with isOld | isNew
    · exact isOld
    · have less := lt_nextSeq member
      have notLess := new entry isNew
      omega
  · intro turn finished
    refine ⟨passed turn finished.1, ?_⟩
    intro work member same
    rcases left work member with isLeft | unpassed
    · exact finished.2 work isLeft same
    · rw [same, finished.1] at unpassed
      cases unpassed
  · intro turn isPending
    unfold Writers.ResultPending at isPending ⊢
    rw [items] at isPending
    exact .inl isPending

/-- A call moves on: it holds what it held and what it has added. -/
theorem of_setCall {call : Turn} {phase : CallPhase} {log added : List Entry}
    {status : SessionStatus} {statusTurn answering : Option Turn} {queries : List Turn}
    (moved : after = { before.setCall call phase with
      log, status, statusTurn, queries, answering }) (grown : log = before.log ++ added)
    (held : ∀ entry, phase.held = some entry ↔
      (before.calls call).held = some entry ∨ entry ∈ added)
    (new : ∀ entry ∈ added, before.nextSeq ≤ entry.seq)
    (unfinished : ∀ entry ∈ added, ¬ before.Finished entry.turn)
    (passed : (before.calls call).passed = true → phase.passed = true) (left : ∀ work ∈ after.work,
      work ∈ before.work ∨ (before.calls work.1).passed = false) :
    Progress before after [] := by
  subst moved
  refine of_growth grown ?_ new unfinished (setCall_passed passed) left rfl
  intro entry
  change (before.setCall call phase).Waits entry ↔ _
  rw [setCall_waits, held]
  constructor
  · intro cases
    rcases cases with (isHeld | isNew) | ⟨other, _, isHeld⟩ | stored
    · exact .inl (.inl ⟨call, isHeld⟩)
    · exact .inr isNew
    · exact .inl (.inl ⟨other, isHeld⟩)
    · exact .inl (.inr stored)
  · intro cases
    rcases cases with (⟨other, isHeld⟩ | stored) | isNew
    · by_cases same : other = call
      · exact .inl (.inl (same ▸ isHeld))
      · exact .inr (.inl ⟨other, same, isHeld⟩)
    · exact .inr (.inr stored)
    · exact .inl (.inr isNew)

theorem of_inbox {item : Item} {turn : Turn} {later : Option Turn} {alive : Bool}
    (answering : before.answering = some turn) (isTurn : item.turn = turn)
    (moved : after = { before with inbox := before.inbox ++ [item], answering := later, alive })
    (stays : later = before.answering ∨ later = none)
    (shape : messages = [] ∨ messages = [.other] ∨ messages = [.result turn])
    (results : .result turn ∈ messages →
      (before.calls turn).passed = true ∧ ∀ other, after.ResultPending other → other = turn)
    (announced : ∀ outcome, item.kind = .result outcome → .result turn ∈ messages) :
    Progress before after messages := by
  subst moved
  have silent : ∀ entry, .entry entry ∉ messages := by
    intro entry member
    rcases shape with none | other | result <;> simp_all
  have unclosing : ∀ message ∈ messages, message.closes = none := by
    intro message member
    rcases shape with none | other | result <;>
      simp_all [Message.closes]
  have left : ∀ work, work ∈ Writers.work
        { before with inbox := before.inbox ++ [item], answering := later, alive } →
      work ∈ before.work ∨ work.1 = turn := by
    intro work member
    have cases : work ∈ before.work ∨ work = item.work := by
      simp only [Writers.work, queued, map_append, mem_append, map_cons, map_nil,
        mem_singleton] at member ⊢
      rcases stays with rfl | rfl
      · tauto
      · simp only [Option.toList_none, map_nil, not_mem_nil, false_or] at member
        tauto
    rcases cases with old | new
    · exact .inl old
    · exact .inr (by rw [new]; exact isTurn)
  have short : ∀ {relation : Message → Message → Prop}, messages.Pairwise relation := by
    rcases shape with none | other | result <;> simp_all
  refine
    { grows := ⟨[], by simp, by simp⟩
      waited := fun _ isWaiting => .inl isWaiting
      old := fun _ isWaiting _ => isWaiting
      sent := fun entry member => absurd member (silent entry)
      clears := fun entry member => absurd member (silent entry)
      ascending := short
      closes := fun message member turn closes => ?_
      closesLast := short
      passed := fun _ isPassed => isPassed
      finished := ?_
      results := ?_
      pending := ?_
      completes := ?_ }
  · rw [unclosing message member] at closes
    cases closes
  · intro other finished
    refine ⟨finished.1, ?_⟩
    intro work member
    rcases left work member with isLeft | isTurn
    · exact finished.2 work isLeft
    · have unfinished : ¬ before.Finished turn :=
        not_finished_of_mem (show (turn, true) ∈ before.work by
          rw [work_of_answering answering]
          simp)
      intro same
      rw [isTurn] at same
      exact unfinished (same ▸ finished)
  · intro other member
    have same : other = turn := by
      rcases shape with none | isOther | result <;> simp_all
    subst same
    exact results member
  · intro other isPending
    obtain ⟨found, member, foundTurn, outcome, isResult⟩ := isPending
    rw [← append_assoc] at member
    rcases mem_append.mp member with stored | added
    · exact .inl ⟨found, stored, foundTurn, outcome, isResult⟩
    · right
      rw [mem_singleton.mp added] at foundTurn isResult
      rw [← foundTurn, isTurn]
      exact announced outcome isResult
  · intro other member
    rcases shape with none | isOther | result <;> simp_all

end Progress

namespace Proceeds

variable {before middle after : Writers} {item : Item} {messages : List Message} {turn : Turn}

theorem frame (proceeds : Proceeds middle item after messages) :
    after.log = middle.log ∧ after.calls = middle.calls ∧ after.worker.held = [] ∧
      (∀ found ∈ after.worker.item?.toList ++ after.inbox,
        (found.turn = item.turn ∧ found.kind = item.kind) ∨ found ∈ middle.inbox) ∧
      (messages = [] ∨ messages = [.turnComplete item.turn] ∧
        (∃ outcome, item.kind = .result outcome) ∧
        after.work = middle.queued) := by
  cases proceeds with
  | store =>
    refine ⟨rfl, rfl, rfl, ?_, .inl rfl⟩
    intro found member
    rcases mem_cons.mp member with same | inInbox
    · exact .inl ⟨by rw [same], by rw [same]⟩
    · exact .inr inInbox
  | message => exact ⟨rfl, rfl, rfl, fun _ member => .inr member, .inl rfl⟩
  | result isResult shape =>
    refine ⟨rfl, rfl, rfl, fun _ member => .inr member, ?_⟩
    rcases shape with none | one
    · exact .inl none
    · exact .inr ⟨one, isResult, rfl⟩
  | exit => exact ⟨rfl, rfl, rfl, fun _ member => .inr member, .inl rfl⟩

/-- The inbox task broadcasts what it has stored and goes on. -/
theorem progress (proceeds : Proceeds middle item after messages)
    (closed : ∀ call, (before.calls call).isOpen = false)
    (log : middle.log = before.log) (calls : middle.calls = before.calls)
    (work : before.work = item.work :: middle.queued)
    (one : OneTurn turn (item.work :: middle.queued)) (passed : (before.calls turn).passed = true)
    (items : before.worker.item?.toList ++ before.inbox = item :: middle.inbox)
    (numbered : Ascending before.worker.held) :
    Progress before after (before.worker.held.map .entry ++ messages) := by
  obtain ⟨sameLog, sameCalls, free, found, shape⟩ := proceeds.frame
  have isTurn : item.turn = turn := one.turn_of_mem item.work mem_cons_self
  have unheld : ∀ call, (before.calls call).held = none :=
    fun call => held_none_of_closed (closed call)
  have quiet : ∀ entry, ¬ after.Waits entry := by
    intro entry waits
    rcases waits with ⟨call, held⟩ | stored
    · rw [sameCalls, calls, unheld call] at held
      cases held
    · rw [free] at stored
      cases stored
  have silent : ∀ entry, .entry entry ∉ messages := by
    intro entry member
    rcases shape with none | ⟨one, _⟩ <;> simp_all
  have left : ∀ work ∈ after.work, work ∈ before.work := by
    intro other member
    rw [work]
    rcases proceeds.work_eq with same | same
    · exact same ▸ member
    · exact mem_cons_of_mem _ (same ▸ member)
  refine
    { grows := ⟨[], by simp [sameLog, log], by simp⟩
      waited := ?_
      old := fun entry waits _ => absurd waits (quiet entry)
      sent := ?_
      clears := fun _ _ other => quiet other
      ascending := ?_
      closes := ?_
      closesLast := ?_
      passed := fun turn isPassed => by
        rw [sameCalls, calls]
        exact isPassed
      finished := ?_
      results := ?_
      pending := ?_
      completes := ?_ }
  · intro entry waits
    rcases waits with ⟨call, held⟩ | stored
    · rw [unheld call] at held
      cases held
    · right
      exact mem_append_left _ (mem_map_of_mem stored)
  · intro entry member
    rcases mem_append.mp member with stored | message
    · obtain ⟨other, isStored, same⟩ := mem_map.mp stored
      cases same
      exact .inr isStored
    · exact absurd message (silent entry)
  · apply pairwise_append.mpr
    refine ⟨?_, ?_, ?_⟩
    · rw [pairwise_map]
      apply numbered.imp
      intro first second less entry other isFirst isSecond
      cases isFirst
      cases isSecond
      exact less
    · rcases shape with none | ⟨one, _⟩ <;> simp_all
    · intro first _ second member entry other _ isSecond
      exact absurd (isSecond ▸ member) (silent other)
  · intro message member other closes
    refine ⟨?_, fun entry waits => absurd waits (quiet entry)⟩
    rcases mem_append.mp member with stored | isMessage
    · obtain ⟨entry, _, same⟩ := mem_map.mp stored
      rw [← same] at closes
      cases closes
    · rcases shape with none | ⟨one', ⟨outcome, isResult⟩, rest⟩
      · rw [none] at isMessage
        cases isMessage
      · rw [one', mem_singleton] at isMessage
        rw [isMessage] at closes
        cases closes
        refine ⟨?_, ?_⟩
        · rw [sameCalls, calls, isTurn]
          exact passed
        · rw [rest, queued_nil one (by rw [isResult]; rfl)]
          simp
  · apply pairwise_append.mpr
    refine ⟨?_, ?_, ?_⟩
    · rw [pairwise_map]
      exact Pairwise.imp (fun _ => rfl) numbered
    · rcases shape with none | ⟨one, _⟩ <;> simp_all
    · intro first member _ _
      obtain ⟨entry, _, same⟩ := mem_map.mp member
      rw [← same]
      rfl
  · intro other finished
    refine ⟨by rw [sameCalls, calls]; exact finished.1, ?_⟩
    intro left' member
    exact finished.2 left' (left left' member)
  · intro other member
    rcases shape with none | ⟨one, _⟩ <;> simp_all
  · intro other isPending
    obtain ⟨item', member, itemTurn, isResult⟩ := isPending
    left
    rcases found item' member with ⟨sameTurn, sameKind⟩ | inInbox
    · exact ⟨item, by rw [items]; simp, sameTurn ▸ itemTurn, sameKind ▸ isResult⟩
    · exact ⟨item', by rw [items]; simp [inInbox], itemTurn, isResult⟩
  · intro other member
    rcases shape with none | ⟨one, isResult, _⟩
    · simp [none] at member
    · have same : other = item.turn := by simpa [one] using member
      refine ⟨⟨item, by rw [items]; simp, same.symm, isResult⟩, ?_⟩
      simp [one]

end Proceeds

namespace Progress

variable {before after : Writers} {event : WriterEvent} {messages : List Message}

variable (serial : Serial before)
include serial

/-- A call broadcasts its entry: no other entry waits. -/
theorem of_announce {call : Turn} {entry : Entry} (here : before.calls call = .sent entry) :
    Progress before (before.setCall call .returned) [.entry entry] := by
  obtain ⟨_, free, _⟩ := (serial.fits call).delivering (by rw [here]; rfl)
  have stored := Worker.held_of_item? free
  have others : ∀ other, other ≠ call → (before.calls other).held = none := by
    intro other different
    apply held_none_of_closed
    exact serial.others_closed (by rw [here]; rfl) other different
  have only : ∀ other, before.Waits other → other = entry := by
    intro other waits
    rcases waits with ⟨holder, held⟩ | isStored
    · by_cases same : holder = call
      · rw [same, here] at held
        exact (Option.some.inj held).symm
      · rw [others holder same] at held
        cases held
    · rw [stored] at isStored
      cases isStored
  have quiet : ∀ other, ¬ (before.setCall call .returned).Waits other := by
    intro other waits
    rcases setCall_waits.mp waits with held | ⟨holder, different, held⟩ | now
    · cases held
    · rw [others holder different] at held
      cases held
    · rw [stored] at now
      cases now
  have passed : ∀ turn, (before.calls turn).passed = true →
      ((before.setCall call .returned).calls turn).passed = true :=
    setCall_passed (fun _ => rfl)
  refine
    { grows := ⟨[], by simp [Writers.setCall], by simp⟩
      waited := fun other waits => .inr (by simp [only other waits])
      old := fun other waits _ => absurd waits (quiet other)
      sent := ?_
      clears := fun _ _ other => quiet other
      ascending := pairwise_singleton ..
      closes := by simp [Message.closes]
      closesLast := pairwise_singleton ..
      passed := passed
      finished := fun turn finished => ⟨passed turn finished.1, finished.2⟩
      results := by simp
      pending := fun turn isPending => .inl isPending
      completes := by simp }
  intro other member
  have same : other = entry := by simpa using member
  rw [same]
  exact .inl ⟨call, by rw [here]; rfl⟩

/-- The terminal status is broadcast: nothing of its turn waits. -/
theorem of_close {turn : Turn} (working : before.worker = .closing turn) :
    Progress before { before with worker := .ended } [.runtimeStatus turn] := by
  obtain ⟨finished, unheld⟩ := serial.closing turn working
  have work : Writers.work { before with worker := .ended } = before.work := by
    simp [Writers.work, queued, working, Worker.item?]
  have waits : ∀ entry, Writers.Waits { before with worker := .ended } entry ↔
      before.Waits entry := by
    intro entry
    simp [Writers.Waits, working, Worker.held]
  refine
    { grows := ⟨[], by simp, by simp⟩
      waited := fun entry isWaiting => .inl ((waits entry).mpr isWaiting)
      old := fun entry isWaiting _ => (waits entry).mp isWaiting
      sent := by simp
      clears := by simp
      ascending := pairwise_singleton ..
      closes := ?_
      closesLast := pairwise_singleton ..
      passed := fun _ isPassed => isPassed
      finished := fun other isFinished => ⟨isFinished.1, by rw [work]; exact isFinished.2⟩
      results := by simp
      pending := ?_
      completes := by simp }
  · intro message member other closes
    rw [mem_singleton.mp member] at closes
    cases closes
    refine ⟨⟨finished.1, by rw [work]; exact finished.2⟩, ?_⟩
    intro entry isWaiting same
    rcases (waits entry).mp isWaiting with ⟨call, held⟩ | stored
    · have owner := ((serial.fits call).held entry held).2
      rw [← owner, same, unheld] at held
      cases held
    · simp [working, Worker.held] at stored
  · intro other isPending
    left
    simpa [Writers.ResultPending, working, Worker.item?] using isPending

theorem of_proceeds {item : Item} (isItem : before.worker.item? = some item)
    (proceeds : Proceeds before item after messages) :
    Progress before after (before.worker.held.map .entry ++ messages) := by
  have work := Serial.work_of_item isItem
  obtain ⟨_, passed, one⟩ := serial.of_work work
  exact proceeds.progress (serial.closed_of_item isItem) rfl rfl work one
    passed (by simp [isItem]) serial.numbered

theorem of_change (prompt : Prompt before event) (change : Change before event after messages) :
    Progress before after messages := by
  have unwritten : before.log = before.log ++ [] := (append_nil before.log).symm
  cases change with
  | @refuse call here isRunning | @pass call here ready =>
    exact of_setCall rfl unwritten (by simp [here, held])
      (by simp) (by simp) (by simp [here, CallPhase.passed]) (fun _ member => .inl member)
  | @append call here =>
    have unpassed : (before.calls call).passed = false := by
      rw [here]
      rfl
    refine of_setCall rfl rfl ?_ (by simp) ?_ (by simp [unpassed])
      (fun _ member => .inl member)
    · simp [here, held, eq_comm]
    · intro entry member finished
      rw [mem_singleton.mp member] at finished
      have passed := finished.1
      rw [unpassed] at passed
      cases passed
  | @handOver call entry here =>
    refine of_setCall rfl unwritten (by simp [here, held])
      (by simp) (by simp) (by simp [here, CallPhase.passed]) ?_
    intro work member
    have cases : work ∈ before.work ∨ work = (call, true) := by
      simpa [Writers.work, queued, Writers.setCall, or_assoc] using member
    rcases cases with old | new
    · exact .inl old
    · right
      simp [new, here, CallPhase.passed]
  | @accept call rest entry queries answering here =>
    refine of_setCall rfl unwritten (by simp [here, CallPhase.held])
      (by simp) (by simp) (by simp [CallPhase.passed]) ?_
    intro work member
    left
    simpa [Writers.work, queued, Writers.setCall, queries, answering] using member
  | announce here => exact of_announce serial here
  | @emit turn item count answering isTurn isMessage =>
    exact of_inbox answering isTurn rfl (.inl rfl) (.inr (.inl rfl)) (by simp) (by simp [isMessage])
  | @finish turn item outcome count interrupts answering isTurn isResult =>
    have work := work_of_answering answering
    obtain ⟨one, noQueries⟩ := serial.of_answering answering
    refine of_inbox answering isTurn rfl (.inr rfl) (.inr (.inr rfl)) ?_ (by simp)
    intro _
    refine ⟨serial.passed (turn, true) (by rw [work]; simp), ?_⟩
    intro other isPending
    obtain ⟨found, member, foundTurn, _⟩ := isPending
    rw [← foundTurn]
    have inItems : found ∈ before.worker.item?.toList ∨ found ∈ before.inbox ∨ found = item := by
      simpa using member
    rcases inItems with working | inInbox | same
    · apply one.turn_of_mem found.work
      rw [work]
      exact mem_append_left _ (mem_append_left _ (mem_map_of_mem working))
    · apply one.turn_of_mem found.work
      rw [work]
      exact mem_append_left _ (mem_append_right _ (mem_map_of_mem inInbox))
    · rw [same]
      exact isTurn
  | @crash turn item answering isTurn isExit =>
    exact of_inbox answering isTurn rfl (.inr rfl) (.inl rfl) (by simp) (by simp [isExit])
  | @take item rest idle inbox =>
    obtain ⟨isRunning, passed, one⟩ := serial.of_work (Serial.work_of_take idle inbox)
    have closed := serial.closed_of_take idle inbox (prompt item rest inbox)
    have progress := (proceed_proceeds { before with inbox := rest }
      item).progress closed rfl rfl (Serial.work_of_take idle inbox) one
        passed (by simp [idle, inbox, Worker.item?]) serial.numbered
    simpa [idle, Worker.held] using progress
  | @store item count working =>
    have isItem := congrArg Worker.item? working
    obtain ⟨_, new⟩ := newEntries_spec before item.turn count
    refine of_growth rfl ?_ (fun entry member => (new entry member).1) ?_
      (fun _ isPassed => isPassed) ?_ ?_
    · intro entry
      simp [Writers.Waits, working, Worker.held]
    · intro entry member
      rw [(new entry member).2]
      exact not_finished_of_mem (show item.work ∈ before.work by
        rw [Serial.work_of_item isItem]
        exact mem_cons_self)
    · intro work member
      left
      simpa [Writers.work, queued, working, Worker.item?] using member
    · simp [working, Worker.item?]
  | @fail item count working =>
    have isItem := congrArg Worker.item? working
    have progress := of_proceeds serial isItem (giveUp_proceeds before item)
    simpa [working, Worker.held] using progress
  | @resume item entries working =>
    have isItem := congrArg Worker.item? working
    have progress := of_proceeds serial isItem (proceed_proceeds before item)
    rw [working] at progress
    exact progress
  | close working => exact of_close serial working

end Progress

end EntryStream

end MatrixSpooll.Session
