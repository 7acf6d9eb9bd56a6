import MatrixSpooll.Session.EntryBroadcast

/-!
# The stream of entries

A reader of `stream_entry_events` with the writers of the log: it subscribes,
reads the log after its cursor, checks the status and follows the channel.
The entries it yields ascend.  When the reader reads a terminal status itself,
entries that were broadcast since it read the log are still in its queue and
are lost; where this does not happen, and the writers take their turns, every
entry of the turn is yielded before the terminal status.
-/

namespace MatrixSpooll.Session

open Library List Option

namespace EntryStream

open Writers

/-- Where the reader is suspended.  `ended` is the end with a terminal status,
`gone` any other end. -/
inductive ReaderPhase where
  | start
  | cold (turn : Option Turn)
  | subscribing
  | subscribed
  | greeted
  | live (pending : Option Turn) (beats : Nat)
  | beating (pending : Option Turn) (beats : Nat)
  | ended (turn : Option Turn)
  | gone
  deriving DecidableEq

structure Reader where
  phase : ReaderPhase
  lastSeq : Int
  queue : List Message
  yielded : List Entry

structure Feed where
  writers : Writers
  reader : Reader

def listEntries (log : List Entry) (afterSeq : Int) : List Entry :=
  log.filter (fun entry => afterSeq < entry.seq)

namespace Reader

def initially (cursor : Int) : Reader :=
  { phase := .start
    lastSeq := cursor
    queue := []
    yielded := [] }

variable (reader : Reader)

def move (phase : ReaderPhase) : Reader :=
  { reader with phase := phase }

/-- The queue of the reader is among those of the channel. -/
def listens : Bool :=
  match reader.phase with
  | .subscribed => true
  | .greeted => true
  | .live _ _ => true
  | .beating _ _ => true
  | _ => false

def hear (messages : List Message) : Reader :=
  if reader.listens then { reader with queue := reader.queue ++ messages }
  else reader

theorem hear_deaf {reader : Reader} (deaf : reader.listens = false)
    (messages : List Message) : reader.hear messages = reader := by
  simp [hear, deaf]

theorem hear_listening {reader : Reader} (listening : reader.listens = true)
    (messages : List Message) : reader.hear messages =
      { reader with queue := reader.queue ++ messages } := by
  simp [hear, listening]

/-- The backlog is yielded; nothing that is shared is touched meanwhile. -/
def greet (log : List Entry) : Reader :=
  { reader with
    phase := .greeted
    lastSeq := (listEntries log reader.lastSeq).foldl
      (fun last entry => max last entry.seq) reader.lastSeq
    yielded := reader.yielded ++ listEntries log reader.lastSeq }

def yieldEntry (entry : Entry) : Reader :=
  if reader.lastSeq < entry.seq then
    { reader with
      lastSeq := entry.seq
      yielded := reader.yielded ++ [entry] }
  else reader

/-- What the reader does with a message of the channel. -/
def receive (pending : Option Turn) (beats : Nat) : Message → Reader
  | .entry entry => (reader.yieldEntry entry).move (.live pending beats)
  | .turnComplete _ =>
    match pending with
    | some turn => reader.move (.ended (some turn))
    | none => reader.move (.live none beats)
  | .result turn => reader.move (.live (some turn) beats)
  | .runtimeStatus turn => reader.move (.ended (some turn))
  | .other => reader.move (.live pending beats)

end Reader

/-- The next step of the reader. -/
def advance (writers : Writers) (reader : Reader) : Option Reader :=
  match reader.phase with
  | .start =>
    if writers.status = .running then some (reader.move .subscribing)
    else some (reader.move (.cold writers.statusTurn))
  | .cold turn =>
    some { reader with
      phase := .ended turn
      yielded := reader.yielded ++ listEntries writers.log reader.lastSeq }
  | .subscribing => some { reader.move .subscribed with queue := [] }
  | .subscribed => some (reader.greet writers.log)
  | .greeted =>
    if writers.status = .running then some (reader.move (.live none 0))
    else some (reader.move (.ended writers.statusTurn))
  | .live pending beats =>
    match reader.queue with
    | message :: rest => some ({ reader with queue := rest }.receive pending beats message)
    | [] => none
  | .beating (some turn) beats =>
    if 2 ≤ beats + 1 then some (reader.move (.ended (some turn)))
    else some (reader.move (.live (some turn) (beats + 1)))
  | .beating none beats =>
    if writers.status = .running then
      some (reader.move (.live none beats))
    else some (reader.move (.ended writers.statusTurn))
  | _ => none

/-- The client is gone, or the queue was dropped. -/
def leave (reader : Reader) : Option Reader :=
  match reader.phase with
  | .ended _ => none
  | _ => some (reader.move .gone)

/-- Nothing came within the idle time. -/
def beat (reader : Reader) : Option Reader :=
  match reader.phase, reader.queue with
  | .live pending beats, [] => some (reader.move (.beating pending beats))
  | _, _ => none

inductive FeedEvent where
  | write (event : WriterEvent)
  | advance
  | beat
  | leave
  deriving DecidableEq

def withReader (feed : Feed) (reader : Reader) : Feed :=
  { feed with reader := reader }

def next (feed : Feed) : FeedEvent → Option Feed
  | .write event =>
    (write feed.writers event).map (fun (writers, messages) =>
      { writers := writers
        reader := feed.reader.hear messages })
  | .advance => (advance feed.writers feed.reader).map (withReader feed)
  | .beat => (beat feed.reader).map (withReader feed)
  | .leave => (leave feed.reader).map (withReader feed)

/-- A reader with a cursor and the writers of its session. -/
def streamSystem (cursor : Int) : TransitionSystem Feed FeedEvent :=
  { initial := fun feed => feed.writers.Fresh ∧ feed.reader = .initially cursor
    step := fun feed event target => next feed event = some target }

/-- A step is one of a writer, or the reader advances, waits in vain or
leaves. -/
theorem next_cases {feed target : Feed} {event : FeedEvent} (step : next feed event = some target) :
    (∃ writing after messages, event = .write writing ∧
      write feed.writers writing = some (after, messages) ∧
      target = { writers := after, reader := feed.reader.hear messages }) ∨
    (∃ after, event = .advance ∧ advance feed.writers feed.reader = some after ∧
      target = withReader feed after) ∨
    (∃ pending beats, event = .beat ∧ feed.reader.phase = .live pending beats ∧
      target = withReader feed (feed.reader.move (.beating pending beats))) ∨
    (event = .leave ∧ (∀ turn, feed.reader.phase ≠ .ended turn) ∧
      target = withReader feed (feed.reader.move .gone)) := by
  cases event with
  | write writing =>
    obtain ⟨⟨after, messages⟩, wrote, same⟩ := map_eq_some_iff.mp step
    exact .inl ⟨writing, after, messages, rfl, wrote, same.symm⟩
  | advance =>
    obtain ⟨after, advanced, same⟩ := map_eq_some_iff.mp step
    exact .inr (.inl ⟨after, rfl, advanced, same.symm⟩)
  | beat =>
    obtain ⟨after, beats, same⟩ := map_eq_some_iff.mp step
    unfold beat at beats
    split at beats <;> cases beats
    rename_i pending count here _
    exact .inr (.inr (.inl ⟨pending, count, rfl, here, same.symm⟩))
  | leave =>
    obtain ⟨after, left, same⟩ := map_eq_some_iff.mp step
    unfold leave at left
    split at left <;> cases left
    next notOver => exact .inr (.inr (.inr ⟨rfl, notOver, same.symm⟩))

/-! ## Order -/

variable {messages : List Message}

theorem Change.sorted {before after : Writers} {event : WriterEvent}
    (change : Change before event after messages)
    (sorted : Ascending before.log) : Ascending after.log := by
  cases change with
  | @append call here => exact ascending_append sorted call 1
  | @store item count working => exact ascending_append sorted item.turn count
  | take _ _ | resume _ =>
    rw [(proceed_proceeds _ _).frame.1]
    exact sorted
  | fail _ =>
    rw [(giveUp_proceeds _ _).frame.1]
    exact sorted
  | _ => exact sorted

/-- What was yielded ascends and lies behind the reader. -/
structure Yields (reader : Reader) : Prop where
  ascending : Ascending reader.yielded
  behind : ∀ entry ∈ reader.yielded, (entry.seq : Int) ≤ reader.lastSeq

theorem mem_listEntries {log : List Entry} {afterSeq : Int} {entry : Entry} :
    entry ∈ listEntries log afterSeq ↔ entry ∈ log ∧ afterSeq < entry.seq := by
  simp [listEntries]

theorem le_lastSeq (entries : List Entry) (last : Int) :
    last ≤ entries.foldl (fun last entry => max last entry.seq) last ∧
      ∀ entry ∈ entries, (entry.seq : Int) ≤
        entries.foldl (fun last entry => max last entry.seq) last := by
  induction entries generalizing last with
  | nil => simp
  | cons head entries induction =>
    obtain ⟨start, all⟩ := induction (max last head.seq)
    simp only [foldl_cons]
    refine ⟨by omega, ?_⟩
    intro entry member
    rcases mem_cons.mp member with same | later
    · subst same
      omega
    · exact all entry later

theorem lastSeq_cases (entries : List Entry) (last : Int) :
    entries.foldl (fun last entry => max last entry.seq) last = last ∨ ∃ entry ∈ entries,
        entries.foldl (fun last entry => max last entry.seq) last = entry.seq := by
  induction entries generalizing last with
  | nil => exact .inl rfl
  | cons head entries induction =>
    simp only [foldl_cons]
    rcases induction (max last head.seq) with same | ⟨entry, member, same⟩
    · rcases le_total last head.seq with less | more
      · right
        exact ⟨head, mem_cons_self, by rw [same, max_eq_right less]⟩
      · left
        rw [same, max_eq_left more]
    · exact .inr ⟨entry, mem_cons_of_mem _ member, same⟩

namespace Yields

variable {reader : Reader} {log : List Entry} (yields : Yields reader)
include yields

theorem append_listEntries (sorted : Ascending log) :
    Ascending (reader.yielded ++ listEntries log reader.lastSeq) := by
  apply pairwise_append.mpr
  refine ⟨yields.ascending, sorted.sublist filter_sublist, ?_⟩
  intro first firstMember second secondMember
  have behind := yields.behind first firstMember
  have ahead := (mem_listEntries.mp secondMember).2
  omega

theorem greet (sorted : Ascending log) : Yields (reader.greet log) := by
  obtain ⟨start, all⟩ := le_lastSeq (listEntries log reader.lastSeq) reader.lastSeq
  constructor
  · exact yields.append_listEntries sorted
  · intro entry member
    rcases mem_append.mp member with old | new
    · exact Int.le_trans (yields.behind entry old) start
    · exact all entry new

theorem yieldEntry (entry : Entry) : Yields (reader.yieldEntry entry) := by
  unfold Reader.yieldEntry
  split
  · next ahead =>
      constructor
      · apply pairwise_append.mpr
        refine ⟨yields.ascending, pairwise_singleton .., ?_⟩
        intro first member second isNew
        rw [mem_singleton.mp isNew]
        have behind := yields.behind first member
        omega
      · intro other member
        rcases mem_append.mp member with old | new
        · have behind := yields.behind other old
          show (other.seq : Int) ≤ entry.seq
          omega
        · rw [mem_singleton.mp new]
  · exact yields

theorem receive (pending : Option Turn) (beats : Nat) (message : Message) :
    Yields (reader.receive pending beats message) := by
  cases message with
  | entry entry =>
    have moved := yields.yieldEntry entry
    exact ⟨moved.ascending, moved.behind⟩
  | turnComplete turn =>
    cases pending with
    | none | some turn => exact ⟨yields.ascending, yields.behind⟩
  | result turn | runtimeStatus turn | other => exact ⟨yields.ascending, yields.behind⟩

end Yields

/-- The log and what was yielded ascend; until the stream is over, the reader
is behind nothing that it has yielded. -/
structure InOrder (feed : Feed) : Prop where
  sorted : Ascending feed.writers.log
  ascending : Ascending feed.reader.yielded
  behind : (∀ turn, feed.reader.phase ≠ .ended turn) → Yields feed.reader

namespace InOrder

variable {feed : Feed}

theorem of_yields {writers : Writers} {reader : Reader}
    (sorted : Ascending writers.log) (yields : Yields reader) :
    InOrder { writers := writers, reader := reader } :=
  { sorted := sorted
    ascending := yields.ascending
    behind := fun _ => yields }

theorem hear (inOrder : InOrder feed) {after : Writers}
    {messages : List Message} (sorted : Ascending after.log) :
    InOrder { writers := after, reader := feed.reader.hear messages } := by
  unfold Reader.hear
  split
  · exact
      { sorted := sorted
        ascending := inOrder.ascending
        behind := fun notOver => ⟨inOrder.ascending, (inOrder.behind notOver).behind⟩ }
  · exact
      { sorted := sorted
        ascending := inOrder.ascending
        behind := inOrder.behind }

theorem advance (inOrder : InOrder feed) {after : Reader}
    (step : EntryStream.advance feed.writers feed.reader = some after) :
    InOrder (withReader feed after) := by
  have yields : Yields feed.reader := by
    apply inOrder.behind
    intro turn isOver
    simp [EntryStream.advance, isOver] at step
  have moved : ∀ phase, InOrder (withReader feed (feed.reader.move phase)) :=
    fun _ => of_yields inOrder.sorted ⟨yields.ascending, yields.behind⟩
  unfold EntryStream.advance at step
  split at step
  · split at step <;> cases step <;> exact moved _
  · next turn _ =>
      cases step
      exact
        { sorted := inOrder.sorted
          ascending := yields.append_listEntries inOrder.sorted
          behind := fun notOver => absurd rfl (notOver turn) }
  · cases step
    exact of_yields inOrder.sorted ⟨yields.ascending, yields.behind⟩
  · cases step
    exact of_yields inOrder.sorted (yields.greet inOrder.sorted)
  · split at step <;> cases step <;> exact moved _
  · next pending beats _ =>
      split at step <;> cases step
      rename_i message rest _
      have shifted : Yields { feed.reader with queue := rest } := ⟨yields.ascending, yields.behind⟩
      exact of_yields inOrder.sorted (shifted.receive pending beats message)
  · split at step <;> cases step <;> exact moved _
  · split at step <;> cases step <;> exact moved _
  · cases step

end InOrder

theorem inOrder_invariant (cursor : Int) : (streamSystem cursor).Invariant InOrder :=
  { initially := by
      intro feed isInitial
      obtain ⟨fresh, reader⟩ := isInitial
      refine ⟨fresh.1, ?_, ?_⟩
      · rw [reader]
        exact Pairwise.nil
      · intro _
        rw [reader]
        exact ⟨Pairwise.nil, nofun⟩
    preserved := by
      intro feed event target inOrder step
      rcases next_cases step with
        ⟨writing, after, messages, _, wrote, same⟩ | ⟨after, _, advanced,
          same⟩ | ⟨pending, beats, _, here, same⟩ | ⟨_, notOver, same⟩ <;>
        subst same
      · exact inOrder.hear ((write_change wrote).sorted inOrder.sorted)
      · exact inOrder.advance advanced
      · have yields := inOrder.behind (by simp [here])
        exact .of_yields inOrder.sorted ⟨yields.ascending, yields.behind⟩
      · have yields := inOrder.behind notOver
        exact .of_yields inOrder.sorted ⟨yields.ascending, yields.behind⟩ }

/-! ## The queue of the reader -/

/-- After a result comes the end of the same turn, if any. -/
def Paired : Option Turn → List Message → Prop
  | _, [] => True
  | _, .result turn :: rest => Paired (some turn) rest
  | pending, .turnComplete turn :: rest =>
    (∀ other, pending = some other → other = turn) ∧ Paired pending rest
  | pending, _ :: rest => Paired pending rest

/-- The result that is pending when the queue is read. -/
def lastResult : Option Turn → List Message → Option Turn
  | pending, [] => pending
  | _, .result turn :: rest => lastResult (some turn) rest
  | pending, _ :: rest => lastResult pending rest

variable {pending : Option Turn}

theorem Paired.append {queue : List Message} (paired : Paired pending queue)
    (rest : Paired (lastResult pending queue) messages) :
    Paired pending (queue ++ messages) := by
  induction queue generalizing pending with
  | nil => exact rest
  | cons head queue induction =>
    cases head with
    | turnComplete turn => exact ⟨paired.1, induction paired.2 rest⟩
    | _ => exact induction paired rest

theorem lastResult_append (pending : Option Turn) (queue messages : List Message) :
    lastResult pending (queue ++ messages) = lastResult (lastResult pending queue) messages := by
  induction queue generalizing pending with
  | nil => rfl
  | cons head queue induction => cases head <;> exact induction _

theorem lastResult_of_no_result (none : ∀ turn, .result turn ∉ messages) :
    lastResult pending messages = pending := by
  induction messages with
  | nil => rfl
  | cons head messages induction =>
    have rest := induction (fun turn member => none turn (mem_cons_of_mem _ member))
    cases head with
    | result turn => exact absurd mem_cons_self (none turn)
    | _ => exact rest

theorem lastResult_of_result {turn : Turn} (only : ∀ other, .result other ∈ messages → other = turn)
    (member : .result turn ∈ messages ∨ pending = some turn) :
    lastResult pending messages = some turn := by
  induction messages generalizing pending with
  | nil =>
    rcases member with inside | isPending
    · cases inside
    · exact isPending
  | cons head messages induction =>
    have rest : ∀ other, .result other ∈ messages → other = turn :=
      fun other inside => only other (mem_cons_of_mem _ inside)
    cases head with
    | result other => exact induction rest (.inr (by rw [only other mem_cons_self]))
    | _ =>
      apply induction rest
      rcases member with inside | isPending
      · left
        simpa using inside
      · exact .inr isPending

theorem Paired.of_no_result (none : ∀ turn, .result turn ∉ messages)
    (completes : ∀ turn, .turnComplete turn ∈ messages →
      ∀ other, pending = some other → other = turn) :
    Paired pending messages := by
  induction messages with
  | nil => trivial
  | cons head messages induction =>
    have rest := induction (fun turn member => none turn (mem_cons_of_mem _ member))
      (fun turn member => completes turn (mem_cons_of_mem _ member))
    cases head with
    | result turn => exact absurd mem_cons_self (none turn)
    | turnComplete turn => exact ⟨completes turn mem_cons_self, rest⟩
    | _ => exact rest

theorem Paired.of_no_complete (none : ∀ turn, .turnComplete turn ∉ messages) :
    Paired pending messages := by
  induction messages generalizing pending with
  | nil => trivial
  | cons head messages induction =>
    have rest : ∀ {pending}, Paired pending messages := induction
      (fun turn member => none turn (mem_cons_of_mem _ member))
    cases head with
    | turnComplete turn => exact absurd mem_cons_self (none turn)
    | _ => exact rest

/-- What is in the queue of a reader is in the log and in its order; a turn
that is closed in it has nothing to come. -/
structure Followed (writers : Writers) (pending : Option Turn) (queue : List Message) : Prop where
  logged : ∀ entry, .entry entry ∈ queue → entry ∈ writers.log
  ascending : queue.Pairwise (fun first second => ∀ entry other,
    first = .entry entry → second = .entry other → entry.seq < other.seq)
  ahead : ∀ entry other, .entry entry ∈ queue → writers.Waits other → entry.seq < other.seq
  closes : ∀ message ∈ queue, ∀ turn, message.closes = some turn →
    writers.Finished turn ∧ ∀ entry, writers.Waits entry → entry.turn ≠ turn
  closed : queue.Pairwise (fun first second => ∀ turn entry,
    first.closes = some turn → second = .entry entry → entry.turn ≠ turn)
  paired : Paired pending queue
  resulting : ∀ turn, writers.ResultPending turn →
    lastResult pending queue = none ∨ lastResult pending queue = some turn
  pendingPassed : ∀ turn, pending = some turn →
    (writers.calls turn).passed = true
  resultPassed : ∀ turn, .result turn ∈ queue →
    (writers.calls turn).passed = true

namespace Followed

variable {before after : Writers} {pending : Option Turn}
  {queue messages rest : List Message} {message : Message}

theorem subscribe (writers : Writers) : Followed writers none [] := by
  constructor <;> simp [Paired, lastResult]

section

variable (progress : Progress before after messages)
include progress

theorem paired_hear (followed : Followed before pending queue) :
    Paired pending (queue ++ messages) := by
  apply followed.paired.append
  by_cases completes : ∃ turn, .turnComplete turn ∈ messages
  · obtain ⟨turn, member⟩ := completes
    apply Paired.of_no_result (progress.completes turn member).2
    intro other otherMember found isFound
    have isPending := (progress.completes other otherMember).1
    rcases followed.resulting other isPending with none | some
    · rw [none] at isFound
      cases isFound
    · rw [some] at isFound
      exact (Option.some.inj isFound).symm
  · apply Paired.of_no_complete
    intro turn member
    exact completes ⟨turn, member⟩

theorem resulting_hear (followed : Followed before pending queue) {turn : Turn}
    (isPending : after.ResultPending turn) :
    lastResult pending (queue ++ messages) = none ∨
      lastResult pending (queue ++ messages) = some turn := by
  rw [lastResult_append]
  by_cases announced : ∃ other, .result other ∈ messages
  · obtain ⟨other, member⟩ := announced
    have same : turn = other := (progress.results other member).2 turn isPending
    right
    apply lastResult_of_result
    · intro found foundMember
      exact ((progress.results found foundMember).2 turn isPending).symm
    · exact .inl (same ▸ member)
  · have none : ∀ other, .result other ∉ messages :=
      fun other member => announced ⟨other, member⟩
    rw [lastResult_of_no_result none]
    rcases progress.pending turn isPending with old | new
    · exact followed.resulting turn old
    · exact absurd new (none turn)

/-- An entry that waits after a step was in the log before it and waited, or
is new. -/
theorem waits_cases (serial : Serial after) {entry : Entry} (waits : after.Waits entry) :
    before.Waits entry ∨ (∀ other ∈ before.log, other.seq < entry.seq) ∧
      ¬ before.Finished entry.turn := by
  obtain ⟨added, log, new⟩ := progress.grows
  have member := serial.logged entry waits
  rw [log] at member
  rcases mem_append.mp member with old | isNew
  · exact .inl (progress.old entry waits old)
  · right
    refine ⟨?_, (new entry isNew).2⟩
    intro other otherMember
    have sorted := serial.sorted
    rw [log] at sorted
    exact (pairwise_append.mp sorted).2.2 other otherMember entry isNew

theorem hear (followed : Followed before pending queue)
    (serialBefore : Serial before) (serial : Serial after) :
    Followed after pending (queue ++ messages) := by
  obtain ⟨added, log, _⟩ := progress.grows
  refine
    { logged := ?_
      ascending := ?_
      ahead := ?_
      closes := ?_
      closed := ?_
      paired := followed.paired_hear progress
      resulting := fun _ isPending => followed.resulting_hear progress isPending
      pendingPassed := fun turn isPending =>
        progress.passed turn (followed.pendingPassed turn isPending)
      resultPassed := ?_ }
  · intro entry member
    rw [log]
    apply mem_append_left
    rcases mem_append.mp member with old | new
    · exact followed.logged entry old
    · exact serialBefore.logged entry (progress.sent entry new)
  · apply pairwise_append.mpr
    refine ⟨followed.ascending, progress.ascending, ?_⟩
    intro first firstMember second secondMember entry other isFirst isSecond
    subst isFirst
    subst isSecond
    exact followed.ahead entry other firstMember (progress.sent other secondMember)
  · intro entry other member waits
    rcases mem_append.mp member with old | new
    · rcases waits_cases progress serial waits with waited | ⟨later, _⟩
      · exact followed.ahead entry other old waited
      · exact later entry (followed.logged entry old)
    · exact absurd waits (progress.clears entry new other)
  · intro message member turn closes
    rcases mem_append.mp member with old | new
    · obtain ⟨finished, others⟩ := followed.closes message old turn closes
      refine ⟨progress.finished turn finished, ?_⟩
      intro entry waits
      rcases waits_cases progress serial waits with waited | ⟨_, unfinished⟩
      · exact others entry waited
      · intro same
        exact unfinished (same ▸ finished)
    · exact progress.closes message new turn closes
  · apply pairwise_append.mpr
    refine ⟨followed.closed, ?_, ?_⟩
    · apply progress.closesLast.imp
      intro first second unclosing turn entry closes
      rw [unclosing] at closes
      cases closes
    · intro first firstMember second secondMember turn entry closes isEntry
      subst isEntry
      exact (followed.closes first firstMember turn closes).2 entry
        (progress.sent entry secondMember)
  · intro turn member
    rcases mem_append.mp member with old | new
    · exact progress.passed turn (followed.resultPassed turn old)
    · exact (progress.results turn new).1

end

theorem tail (followed : Followed before pending (message :: rest)) :
    Followed before (lastResult pending [message]) rest := by
  have paired : Paired (lastResult pending [message]) rest := by
    have whole := followed.paired
    cases message with
    | turnComplete turn => exact whole.2
    | _ => exact whole
  have same : lastResult (lastResult pending [message]) rest =
      lastResult pending (message :: rest) :=
    (lastResult_append pending [message] rest).symm
  refine
    { logged := fun entry member => followed.logged entry (mem_cons_of_mem _ member)
      ascending := (pairwise_cons.mp followed.ascending).2
      ahead := fun entry other member =>
        followed.ahead entry other (mem_cons_of_mem _ member)
      closes := fun later member => followed.closes later (mem_cons_of_mem _ member)
      closed := (pairwise_cons.mp followed.closed).2
      paired := paired
      resulting := fun turn isPending => by
        rw [same]
        exact followed.resulting turn isPending
      pendingPassed := ?_
      resultPassed := fun turn member =>
        followed.resultPassed turn (mem_cons_of_mem _ member) }
  intro turn isPending
  cases message with
  | result other =>
    cases isPending
    exact followed.resultPassed turn mem_cons_self
  | _ => exact followed.pendingPassed turn isPending

end Followed

/-! ## Completeness -/

/-- The reader has yielded what lies behind it, and the rest is in its queue
or waits for its broadcast. -/
structure Current (cursor : Int) (writers : Writers) (reader : Reader) : Prop where
  seen : ∀ entry ∈ writers.log, cursor < entry.seq →
    (entry.seq : Int) ≤ reader.lastSeq → entry ∈ reader.yielded
  coming : ∀ entry ∈ writers.log, reader.lastSeq < entry.seq →
    writers.Waits entry ∨ .entry entry ∈ reader.queue
  bounded : reader.lastSeq = cursor ∨ ∃ entry ∈ writers.log, reader.lastSeq = entry.seq

/-- Every entry of the turn after the cursor was yielded, and none will be
added. -/
def Complete (cursor : Int) (writers : Writers) (reader : Reader) (turn : Turn) : Prop :=
  writers.Finished turn ∧ ∀ entry ∈ writers.log, entry.turn = turn →
    cursor < entry.seq → entry ∈ reader.yielded

/-- What holds of the reader where it is suspended. -/
def Tracks (cursor : Int) (writers : Writers) (reader : Reader) : Prop :=
  match reader.phase with
  | .start => reader.lastSeq = cursor
  | .cold turn => reader.lastSeq = cursor ∧
      ∀ closed, turn = some closed → writers.Finished closed
  | .subscribing => reader.lastSeq = cursor
  | .subscribed => reader.lastSeq = cursor ∧
      Followed writers none reader.queue
  | .greeted => Current cursor writers reader ∧
      Followed writers none reader.queue
  | .live pending _ => Current cursor writers reader ∧
      Followed writers pending reader.queue
  | .beating pending _ => Current cursor writers reader ∧
      Followed writers pending reader.queue
  | .ended turn => ∀ closed, turn = some closed →
      Complete cursor writers reader closed
  | .gone => True

/-- The reader has come to the end of the log. -/
def CaughtUp (feed : Feed) : Prop :=
  ∀ entry ∈ feed.writers.log, (entry.seq : Int) ≤ feed.reader.lastSeq

/-- The writers are prompt.  The reader reads a terminal status, or gives up
waiting for the end of the turn, only when the status is terminal and it has
come to the end of the log. -/
def Orderly (feed : Feed) : FeedEvent → Prop
  | .write event => Prompt feed.writers event
  | .advance =>
    match feed.reader.phase with
    | .greeted => feed.writers.status ≠ .running → CaughtUp feed
    | .beating none _ => feed.writers.status ≠ .running → CaughtUp feed
    | .beating (some _) beats => 2 ≤ beats + 1 →
        feed.writers.status ≠ .running ∧ CaughtUp feed
    | _ => True
  | _ => True

namespace Current

variable {cursor : Int} {before after : Writers} {reader : Reader} {messages : List Message}

theorem hear (current : Current cursor before reader)
    (serial : Serial after) (progress : Progress before after messages) :
    Current cursor after
      { reader with queue := reader.queue ++ messages } := by
  obtain ⟨added, log, new⟩ := progress.grows
  have sorted := serial.sorted
  rw [log] at sorted
  have later := (pairwise_append.mp sorted).2.2
  constructor
  · intro entry member isAfter behind
    rw [log] at member
    rcases mem_append.mp member with old | isNew
    · exact current.seen entry old isAfter behind
    · rcases current.bounded with same | ⟨last, lastMember, same⟩
      · have isBehind : (entry.seq : Int) ≤ reader.lastSeq := behind
        omega
      · have greater := later last lastMember entry isNew
        have isBehind : (entry.seq : Int) ≤ reader.lastSeq := behind
        omega
  · intro entry member ahead
    rw [log] at member
    rcases mem_append.mp member with old | isNew
    · rcases current.coming entry old ahead with waits | queued
      · rcases progress.waited entry waits with still | sent
        · exact .inl still
        · exact .inr (mem_append_right _ sent)
      · exact .inr (mem_append_left _ queued)
    · exact .inl (new entry isNew).1
  · rcases current.bounded with same | ⟨last, member, same⟩
    · exact .inl same
    · exact .inr ⟨last, log ▸ mem_append_left _ member, same⟩

variable {writers : Writers}

theorem move (current : Current cursor writers reader) (phase : ReaderPhase) :
    Current cursor writers (reader.move phase) :=
  ⟨current.seen, current.coming, current.bounded⟩

theorem greet (start : reader.lastSeq = cursor) :
    Current cursor writers (reader.greet writers.log) := by
  obtain ⟨least, all⟩ := le_lastSeq (listEntries writers.log reader.lastSeq) reader.lastSeq
  constructor
  · intro entry member isAfter _
    exact mem_append_right _ (mem_listEntries.mpr ⟨member, start ▸ isAfter⟩)
  · intro entry member ahead
    have ahead' : (listEntries writers.log reader.lastSeq).foldl
        (fun last entry => max last entry.seq) reader.lastSeq < (entry.seq : Int) := ahead
    have listed : entry ∈ listEntries writers.log reader.lastSeq :=
      mem_listEntries.mpr ⟨member, by omega⟩
    have behind := all entry listed
    omega
  · rcases lastSeq_cases (listEntries writers.log reader.lastSeq)
      reader.lastSeq with same | ⟨entry, member, same⟩
    · exact .inl (same.trans start)
    · exact .inr ⟨entry, (mem_listEntries.mp member).1, same⟩

variable {rest : List Message} (current : Current cursor writers reader)
include current

theorem yieldEntry {pending : Option Turn} {entry : Entry}
    (queue : reader.queue = .entry entry :: rest)
    (followed : Followed writers pending (.entry entry :: rest)) :
    Current cursor writers ({ reader with queue := rest }.yieldEntry entry) := by
  have later : ∀ other, .entry other ∈ rest → entry.seq < other.seq := by
    intro other member
    exact (pairwise_cons.mp followed.ascending).1 _ member entry other
      rfl rfl
  have coming : ∀ other ∈ writers.log, reader.lastSeq < other.seq →
      other = entry ∨ writers.Waits other ∨ .entry other ∈ rest := by
    intro other member ahead
    rcases current.coming other member ahead with waits | queued
    · exact .inr (.inl waits)
    · rw [queue] at queued
      rcases mem_cons.mp queued with same | inRest
      · exact .inl (Message.entry.inj same)
      · exact .inr (.inr inRest)
  unfold Reader.yieldEntry
  split
  · next isAhead =>
      have isNew : reader.lastSeq < entry.seq := isAhead
      constructor
      · intro other member isAfter behind
        have atMost : (other.seq : Int) ≤ entry.seq := behind
        by_cases old : (other.seq : Int) ≤ reader.lastSeq
        · exact mem_append_left _ (current.seen other member isAfter old)
        · rcases coming other member (by omega) with same | waits | inRest
          · exact mem_append_right _ (by simp [same])
          · have less := followed.ahead entry other mem_cons_self waits
            omega
          · have less := later other inRest
            omega
      · intro other member ahead
        have greater : (entry.seq : Int) < other.seq := ahead
        rcases coming other member (by omega) with same | waits | inRest
        · rw [same] at greater
          omega
        · exact .inl waits
        · exact .inr inRest
      · exact .inr ⟨entry, followed.logged entry mem_cons_self, rfl⟩
  · next notAhead =>
      have isOld : ¬ reader.lastSeq < entry.seq := notAhead
      refine ⟨current.seen, ?_, current.bounded⟩
      intro other member ahead
      have greater : reader.lastSeq < (other.seq : Int) := ahead
      rcases coming other member greater with same | waits | inRest
      · rw [same] at greater
        omega
      · exact .inl waits
      · exact .inr inRest

theorem skip {message : Message} (queue : reader.queue = message :: rest)
    (noEntry : ∀ entry, message ≠ .entry entry) :
    Current cursor writers { reader with queue := rest } := by
  refine ⟨current.seen, ?_, current.bounded⟩
  intro entry member ahead
  rcases current.coming entry member ahead with waits | queued
  · exact .inl waits
  · rw [queue] at queued
    rcases mem_cons.mp queued with same | inRest
    · exact absurd same.symm (noEntry entry)
    · exact .inr inRest

/-- A message closes a turn: what is left of the queue has no entry of it. -/
theorem complete {pending : Option Turn} {message : Message} {turn : Turn}
    (queue : reader.queue = message :: rest) (followed : Followed writers pending (message :: rest))
    (closes : message.closes = some turn) {after : Reader}
    (yielded : after.yielded = reader.yielded) :
    Complete cursor writers after turn := by
  obtain ⟨finished, others⟩ := followed.closes message mem_cons_self turn closes
  refine ⟨finished, ?_⟩
  intro entry member isTurn isAfter
  rw [yielded]
  by_cases behind : (entry.seq : Int) ≤ reader.lastSeq
  · exact current.seen entry member isAfter behind
  · rcases current.coming entry member (by omega) with waits | queued
    · exact absurd isTurn (others entry waits)
    · rw [queue] at queued
      rcases mem_cons.mp queued with same | inRest
      · rw [← same] at closes
        cases closes
      · exact absurd isTurn ((pairwise_cons.mp followed.closed).1 _ inRest turn entry closes rfl)

end Current

theorem Serial.finished_of_terminal {writers : Writers}
    (serial : Serial writers) (terminal : writers.status ≠ .running)
    {turn : Turn} (passed : (writers.calls turn).passed = true) :
    writers.Finished turn := by
  refine ⟨passed, ?_⟩
  rcases serial.oneTurn with none | ⟨isRunning, _⟩
  · rw [none]
    simp
  · exact absurd isRunning terminal

namespace Tracks

variable {cursor : Int} {feed : Feed}

theorem hear (tracks : Tracks cursor feed.writers feed.reader)
    (serialBefore : Serial feed.writers) {after : Writers}
    (serial : Serial after) {messages : List Message}
    (progress : Progress feed.writers after messages) :
    Tracks cursor after (feed.reader.hear messages) := by
  cases here : feed.reader.phase with
  | start | subscribing =>
    rw [Reader.hear_deaf (by simp [Reader.listens, here])]
    simpa only [Tracks, here] using tracks
  | cold turn =>
    rw [Reader.hear_deaf (by simp [Reader.listens, here])]
    simp only [Tracks, here] at tracks ⊢
    exact ⟨tracks.1, fun closed isTurn => progress.finished closed (tracks.2 closed isTurn)⟩
  | subscribed =>
    rw [Reader.hear_listening (by simp [Reader.listens, here])]
    simp only [Tracks, here] at tracks ⊢
    exact ⟨tracks.1, tracks.2.hear progress serialBefore serial⟩
  | greeted | live pending beats | beating pending beats =>
    rw [Reader.hear_listening (by simp [Reader.listens, here])]
    simp only [Tracks, here] at tracks ⊢
    have current := tracks.1.hear serial progress
    rw [here] at current
    exact ⟨current, tracks.2.hear progress serialBefore serial⟩
  | ended turn =>
    rw [Reader.hear_deaf (by simp [Reader.listens, here])]
    simp only [Tracks, here] at tracks ⊢
    intro closed isTurn
    obtain ⟨finished, all⟩ := tracks closed isTurn
    refine ⟨progress.finished closed finished, ?_⟩
    intro entry member isEntry isAfter
    obtain ⟨added, log, new⟩ := progress.grows
    rw [log] at member
    rcases mem_append.mp member with old | isNew
    · exact all entry old isEntry isAfter
    · exact absurd (isEntry ▸ finished) (new entry isNew).2
  | gone =>
    rw [Reader.hear_deaf (by simp [Reader.listens, here])]
    simp only [Tracks, here]

theorem complete_of_caughtUp {writers : Writers} {reader after : Reader}
    {turn : Turn} (current : Current cursor writers reader)
    (caughtUp : ∀ entry ∈ writers.log, (entry.seq : Int) ≤ reader.lastSeq)
    (finished : writers.Finished turn) (yielded : after.yielded = reader.yielded) :
    Complete cursor writers after turn := by
  refine ⟨finished, ?_⟩
  intro entry member _ isAfter
  rw [yielded]
  exact current.seen entry member isAfter (caughtUp entry member)

theorem receive {writers : Writers} {reader : Reader} {message : Message}
    {rest : List Message} {pending : Option Turn} {beats : Nat}
    (queue : reader.queue = message :: rest) (current : Current cursor writers reader)
    (followed : Followed writers pending reader.queue) :
    Tracks cursor writers ({ reader with queue := rest }.receive pending beats message) := by
  rw [queue] at followed
  have tail := followed.tail
  cases message with
  | entry entry =>
    have moved := current.yieldEntry queue followed
    have sameQueue : ({ reader with queue := rest }.yieldEntry entry).queue = rest := by
      unfold Reader.yieldEntry
      split <;> rfl
    refine ⟨moved.move _, ?_⟩
    show Followed writers pending ({ reader with queue := rest }.yieldEntry entry).queue
    rw [sameQueue]
    exact tail
  | turnComplete turn =>
    cases pending with
    | none =>
      have moved := current.skip queue (by simp)
      exact ⟨moved.move _, tail⟩
    | some other =>
      have same := followed.paired.1 other rfl
      intro closed isClosed
      cases isClosed
      rw [same]
      exact current.complete queue followed rfl rfl
  | result _ | other =>
    have moved := current.skip queue (by simp)
    exact ⟨moved.move _, tail⟩
  | runtimeStatus turn =>
    intro closed isClosed
    cases isClosed
    exact current.complete queue followed rfl rfl

theorem advance (tracks : Tracks cursor feed.writers feed.reader)
    (serial : Serial feed.writers) (orderly : Orderly feed .advance) {after : Reader}
    (step : EntryStream.advance feed.writers feed.reader = some after) :
    Tracks cursor feed.writers after := by
  have terminal : feed.writers.status ≠ .running → ∀ closed, feed.writers.statusTurn = some closed →
        feed.writers.Finished closed := by
    intro isTerminal closed isClosed
    exact serial.finished_of_terminal isTerminal (serial.settled closed isClosed)
  unfold EntryStream.advance at step
  split at step
  · next here =>
      simp only [Tracks, here] at tracks
      split at step <;> cases step
      · exact tracks
      · next isTerminal => exact ⟨tracks, terminal isTerminal⟩
  · next turn here =>
      simp only [Tracks, here] at tracks
      obtain ⟨start, finished⟩ := tracks
      cases step
      intro closed isClosed
      refine ⟨finished closed isClosed, ?_⟩
      intro entry member _ isAfter
      exact mem_append_right _ (mem_listEntries.mpr ⟨member, start ▸ isAfter⟩)
  · next here =>
      simp only [Tracks, here] at tracks
      cases step
      exact ⟨tracks, Followed.subscribe _⟩
  · next here =>
      simp only [Tracks, here] at tracks
      cases step
      exact ⟨Current.greet tracks.1, tracks.2⟩
  · next here =>
      simp only [Tracks, here] at tracks
      simp only [Orderly, here] at orderly
      obtain ⟨current, followed⟩ := tracks
      split at step <;> cases step
      · exact ⟨current.move _, followed⟩
      · next isTerminal =>
            intro closed isClosed
            exact complete_of_caughtUp current (orderly isTerminal)
              (terminal isTerminal closed isClosed) rfl
  · next pending beats here =>
      simp only [Tracks, here] at tracks
      split at step <;> cases step
      next message rest queue => exact receive queue tracks.1 tracks.2
  · next turn beats here =>
      simp only [Tracks, here] at tracks
      simp only [Orderly, here] at orderly
      obtain ⟨current, followed⟩ := tracks
      split at step <;> cases step
      · next enough =>
            obtain ⟨isTerminal, caughtUp⟩ := orderly enough
            intro closed isClosed
            cases isClosed
            exact complete_of_caughtUp current caughtUp (serial.finished_of_terminal isTerminal
                (followed.pendingPassed turn rfl)) rfl
      · exact ⟨current.move _, followed⟩
  · next beats here =>
      simp only [Tracks, here] at tracks
      simp only [Orderly, here] at orderly
      obtain ⟨current, followed⟩ := tracks
      split at step <;> cases step
      · exact ⟨current.move _, followed⟩
      · next isTerminal =>
            intro closed isClosed
            exact complete_of_caughtUp current (orderly isTerminal)
              (terminal isTerminal closed isClosed) rfl
  · cases step

end Tracks

theorem tracks_invariant (cursor : Int) :
    ((streamSystem cursor).restrict Orderly).Invariant (fun feed =>
      Serial feed.writers ∧ Tracks cursor feed.writers feed.reader) :=
  { initially := by
      intro feed isInitial
      obtain ⟨fresh, reader⟩ := isInitial
      refine ⟨Serial.fresh fresh, ?_⟩
      rw [reader]
      rfl
    preserved := by
      intro feed event target holds step
      obtain ⟨serial, tracks⟩ := holds
      obtain ⟨orderly, stepped⟩ := step
      rcases next_cases stepped with
        ⟨writing, after, messages, isWrite, wrote, same⟩ | ⟨after, isAdvance,
          advanced, same⟩ | ⟨pending, beats, _, here, same⟩ | ⟨_, _, same⟩ <;>
        subst same
      · subst isWrite
        have change := write_change wrote
        have serialAfter := serial.preserved orderly change
        exact ⟨serialAfter, tracks.hear serial serialAfter
          (Progress.of_change serial orderly change)⟩
      · subst isAdvance
        exact ⟨serial, tracks.advance serial orderly advanced⟩
      · simp only [Tracks, here] at tracks
        obtain ⟨current, followed⟩ := tracks
        exact ⟨serial, current.move _, followed⟩
      · exact ⟨serial, trivial⟩ }

/-- The entries that a reader yields ascend, so that none comes twice.  Where
the writers are prompt and the reader does not read a terminal status behind
its queue, every entry of the turn after the cursor has been yielded when the
stream ends with the terminal status of the turn. -/
theorem no_entry_after_terminal_status (cursor : Int) :
    (∀ feed, (streamSystem cursor).Reachable feed →
      feed.reader.yielded.Pairwise (fun first second => first.seq < second.seq)) ∧
    ∀ feed, ((streamSystem cursor).restrict Orderly).Reachable feed →
      ∀ turn, feed.reader.phase = .ended (some turn) →
        ∀ entry ∈ feed.writers.log, entry.turn = turn →
          cursor < entry.seq → entry ∈ feed.reader.yielded := by
  constructor
  · intro feed reachable
    exact ((inOrder_invariant cursor).reachable reachable).ascending
  · intro feed reachable turn isOver
    have tracks := ((tracks_invariant cursor).reachable reachable).2
    simp only [Tracks, isOver] at tracks
    exact (tracks turn rfl).2

/-! ## Two runs of one turn -/

/-- A session without entries. -/
def quietWriters : Writers :=
  { log := []
    status := .idle
    statusTurn := none
    calls := fun _ => .start
    queries := []
    answering := none
    alive := true
    inbox := []
    worker := .idle }

def quietFeed : Feed :=
  { writers := quietWriters
    reader := .initially (-1) }

theorem quietFeed_initial : (streamSystem (-1)).initial quietFeed :=
  ⟨⟨Pairwise.nil, rfl, rfl, rfl, rfl, rfl, rfl⟩, rfl⟩

/-- The steps of the run below that meet the condition, as a test. -/
def promptly (feed : Feed) : FeedEvent → Bool
  | .write (.check _) => false
  | .write .take =>
    feed.writers.inbox.head?.all (fun item => (feed.writers.calls item.turn).held.isNone)
  | .advance =>
    match feed.reader.phase with
    | .greeted => feed.writers.status = .running
    | .beating _ _ => false
    | _ => true
  | _ => true

theorem orderly_of_promptly {feed : Feed} {event : FeedEvent}
    (test : promptly feed event = true) : Orderly feed event := by
  cases event with
  | write event =>
    cases event with
    | check call => cases test
    | take =>
      intro item rest inbox
      simpa [promptly, inbox] using test
    | _ => trivial
  | advance =>
    cases here : feed.reader.phase with
    | greeted =>
      have isRunning : feed.writers.status = .running := by
        simpa [promptly, here] using test
      simp [Orderly, here, isRunning]
    | beating pending beats => simp [promptly, here] at test
    | _ => simp [Orderly, here]
  | beat | leave => trivial

/-- The reader is live when the entries of the turn are broadcast. -/
def followedTurn : List FeedEvent :=
  [.write (.append 0), .write (.handOver 0), .write .accept,
    .write (.announce 0), .advance, .advance, .advance, .advance,
    .write (.emit 1), .write .take, .write .store, .write .resume,
    .write (.finish .completed 0 false), .write .take, .advance, .advance,
    .advance, .advance]

theorem followed_turn_is_complete : ∃ feed, ((streamSystem (-1)).restrict Orderly).Reachable feed ∧
      feed.reader.phase = .ended (some 0) ∧
      feed.writers.log = [⟨0, 0⟩, ⟨1, 0⟩] ∧
      ∀ entry ∈ feed.writers.log, entry.turn = 0 → -1 < (entry.seq : Int) →
        entry ∈ feed.reader.yielded := by
  have ran : ((next quietFeed (.write (.check 0))).bind (fun start =>
      followedTurn.foldlM (fun feed event =>
        if promptly feed event then next feed event else none) start)).map
          (fun feed => (feed.reader.phase, feed.writers.log)) =
      some (.ended (some 0), [⟨0, 0⟩, ⟨1, 0⟩]) := by
    decide +kernel
  obtain ⟨feed, reached, observed⟩ := map_eq_some_iff.mp ran
  obtain ⟨start, first, rest⟩ := bind_eq_some_iff.mp reached
  obtain ⟨isOver, log⟩ := Prod.mk.inj observed
  have reachable : ((streamSystem (-1)).restrict Orderly).Reachable feed := by
    refine ⟨quietFeed, .write (.check 0) :: followedTurn, quietFeed_initial,
      .cons ⟨?_, first⟩ (TransitionSystem.Run.of_foldlM ?_ rest)⟩
    · intro other _
      rfl
    · intro state event target step
      obtain ⟨test, stepped⟩ := ite_none_right_eq_some.mp step
      exact ⟨orderly_of_promptly test, stepped⟩
  exact ⟨feed, reachable, isOver, log,
    (no_entry_after_terminal_status (-1)).2 feed reachable 0 isOver⟩

/-- The turn ends between the reading of the log and the check of the
status. -/
def turnBehindGreeting : List FeedEvent :=
  [.write (.check 0), .write (.append 0), .write (.handOver 0),
    .write .accept, .write (.announce 0), .advance, .advance, .advance,
    .write (.emit 1), .write .take, .write .store, .write .resume,
    .write (.finish .completed 0 false), .write .take, .advance]

theorem terminal_status_before_entry : ∃ feed turn entry, (streamSystem (-1)).Reachable feed ∧
      feed.reader.phase = .ended (some turn) ∧ entry ∈ feed.writers.log ∧
      entry.turn = turn ∧ -1 < (entry.seq : Int) ∧
      entry ∉ feed.reader.yielded := by
  have ran : (turnBehindGreeting.foldlM next quietFeed).map (fun feed =>
      (feed.reader.phase, feed.writers.log, feed.reader.yielded)) =
      some (.ended (some 0), [⟨0, 0⟩, ⟨1, 0⟩], [⟨0, 0⟩]) := by
    decide +kernel
  obtain ⟨feed, reached, observed⟩ := map_eq_some_iff.mp ran
  obtain ⟨isOver, log, yielded⟩ : feed.reader.phase = .ended (some 0) ∧
      feed.writers.log = [⟨0, 0⟩, ⟨1, 0⟩] ∧
      feed.reader.yielded = [⟨0, 0⟩] := by
    simpa using observed
  refine ⟨feed, 0, ⟨1, 0⟩, ⟨quietFeed, turnBehindGreeting, quietFeed_initial,
    TransitionSystem.Run.of_foldlM (fun _ _ _ step => step) reached⟩, isOver,
    ?_, rfl, by decide, ?_⟩
  · rw [log]
    decide
  · rw [yielded]
    decide

end EntryStream

end MatrixSpooll.Session
