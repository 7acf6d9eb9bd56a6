import MatrixSpooll.Library.Transition
import MatrixSpooll.Session.Repository

/-!
# The writers of the event log

The calls of `send_message`, the actor and the inbox task of one resident
session, as far as they write the log, broadcast on the channel and set the
status.  An append and the resumption of the task that waits for it are two
steps, so that every interleaving of the writers is a run.  Turns are named by
the call whose query they answer.
-/

namespace MatrixSpooll.Session

open Library

namespace EntryStream

abbrev Turn := Nat

structure Entry where
  seq : Nat
  turn : Turn
  deriving DecidableEq

/-- How a result ends a turn. -/
inductive Outcome where
  | completed
  | error
  | interrupted
  deriving DecidableEq

def Outcome.status : Outcome → SessionStatus
  | .completed => .completed
  | .error => .error
  | .interrupted => .interrupted

/-- What is broadcast.  `other` stands for the messages that carry neither an
entry nor an end of a turn. -/
inductive Message where
  | entry (entry : Entry)
  | turnComplete (turn : Turn)
  | result (turn : Turn)
  | runtimeStatus (turn : Turn)
  | other
  deriving DecidableEq

/-- Where a call of `send_message` is suspended, or how it has ended. -/
inductive CallPhase where
  | start
  | checked
  | appended (entry : Entry)
  | handed (entry : Entry)
  | sent (entry : Entry)
  | returned
  | busy
  deriving DecidableEq

inductive Kind where
  | message
  | result (outcome : Outcome)
  | exit
  deriving DecidableEq

/-- A message in the inbox.  Each of `batches` is the size of one append that
its handling makes. -/
structure Item where
  turn : Turn
  batches : List Nat
  kind : Kind
  deriving DecidableEq

/-- Where the inbox task is suspended. -/
inductive Worker where
  | idle
  | storing (item : Item) (count : Nat)
  | stored (item : Item) (entries : List Entry)
  | closing (turn : Turn)
  | ended
  deriving DecidableEq

/-- `statusTurn` is the turn that the status is about. -/
structure Writers where
  log : List Entry
  status : SessionStatus
  statusTurn : Option Turn
  calls : Turn → CallPhase
  queries : List Turn
  answering : Option Turn
  alive : Bool
  inbox : List Item
  worker : Worker

namespace Writers

variable (writers : Writers)

/-- `coalesce(max(seq), -1) + 1`. -/
def nextSeq : Nat :=
  (writers.log.map (fun entry => entry.seq + 1)).foldr max 0

/-- The entries that an append numbers. -/
def newEntries (turn : Turn) (count : Nat) : List Entry :=
  (List.range count).map (fun offset => { seq := writers.nextSeq + offset, turn := turn })

def setCall (call : Turn) (phase : CallPhase) : Writers :=
  { writers with calls := Function.update writers.calls call phase }

/-- `_finalize_turn`, as far as the status goes. -/
def finalize (turn : Turn) (status : SessionStatus) : Writers :=
  { writers with
    status := status
    statusTurn := some turn }

/-- The inbox task goes on with a message, without a suspension, to its next
append or to its end. -/
def proceed (item : Item) : Writers × List Message :=
  match item.batches with
  | count :: rest =>
    ({ writers with
        worker := .storing { item with batches := rest } count }, [])
  | [] =>
    match item.kind with
    | .message => ({ writers with worker := .idle }, [])
    | .result outcome =>
      ({ writers.finalize item.turn outcome.status with worker := .idle },
        [.turnComplete item.turn])
    | .exit =>
      ({ writers.finalize item.turn .error with
          worker := .closing item.turn }, [])

/-- The handling of a message has raised: the rest of it is skipped, the turn
of a result is finalized. -/
def giveUp (item : Item) : Writers :=
  (writers.proceed { item with batches := [] }).1

end Writers

/-- The appends for the entries of a message: none when there is none. -/
def messageBatches (count : Nat) : List Nat :=
  if count = 0 then [] else [count]

/-- A result of an interrupted turn may add an interrupt entry. -/
def resultBatches (outcome : Outcome) (count : Nat) (interrupts : Bool) : List Nat :=
  messageBatches count ++
    if outcome = .interrupted then [if interrupts then 1 else 0] else []

inductive WriterEvent where
  | check (call : Turn)
  | append (call : Turn)
  | handOver (call : Turn)
  | accept
  | announce (call : Turn)
  | emit (count : Nat)
  | finish (outcome : Outcome) (count : Nat) (interrupts : Bool)
  | crash
  | take
  | store
  | fail
  | resume
  | close
  deriving DecidableEq

open Writers

/-- A step of a writer and what it broadcasts. -/
def write (writers : Writers) : WriterEvent → Option (Writers × List Message)
  | .check call =>
    if writers.calls call = .start then
      some (writers.setCall call (if writers.status = .running then .busy else .checked), [])
    else none
  | .append call =>
    if writers.calls call = .checked then
      some ({ writers.setCall call (.appended { seq := writers.nextSeq, turn := call }) with
          log := writers.log ++ [{ seq := writers.nextSeq, turn := call }] },
        [])
    else none
  | .handOver call =>
    match writers.calls call with
    | .appended entry =>
      some ({ writers.setCall call (.handed entry) with
          status := .running
          statusTurn := some call
          queries := writers.queries ++ [call] }, [])
    | _ => none
  | .accept =>
    match writers.queries, writers.answering with
    | call :: rest, none =>
      match writers.calls call, writers.alive with
      | .handed entry, true =>
        some ({ writers.setCall call (.sent entry) with
            queries := rest
            answering := some call }, [])
      | _, _ => none
    | _, _ => none
  | .announce call =>
    match writers.calls call with
    | .sent entry => some (writers.setCall call .returned, [.entry entry])
    | _ => none
  | .emit count =>
    match writers.answering with
    | some turn =>
      some ({ writers with
          inbox := writers.inbox ++ [{
            turn := turn
            batches := messageBatches count
            kind := .message }] }, [.other])
    | none => none
  | .finish outcome count interrupts =>
    match writers.answering with
    | some turn =>
      some ({ writers with
          answering := none
          inbox := writers.inbox ++ [{
            turn := turn
            batches := resultBatches outcome count interrupts
            kind := .result outcome }] }, [.result turn])
    | none => none
  | .crash =>
    match writers.answering with
    | some turn =>
      some ({ writers with
          answering := none
          alive := false
          inbox := writers.inbox ++ [{
            turn := turn
            batches := []
            kind := .exit }] }, [])
    | none => none
  | .take =>
    match writers.worker, writers.inbox with
    | .idle, item :: rest => some ({ writers with inbox := rest }.proceed item)
    | _, _ => none
  | .store =>
    match writers.worker with
    | .storing item count =>
      some ({ writers with
          log := writers.log ++ writers.newEntries item.turn count
          worker := .stored item (writers.newEntries item.turn count) },
        [])
    | _ => none
  | .fail =>
    match writers.worker with
    | .storing item _ => some (writers.giveUp item, [])
    | _ => none
  | .resume =>
    match writers.worker with
    | .stored item entries =>
      some ((writers.proceed item).1, entries.map .entry ++ (writers.proceed item).2)
    | _ => none
  | .close =>
    match writers.worker with
    | .closing turn => some ({ writers with worker := .ended }, [.runtimeStatus turn])
    | _ => none

/-- No call has been made, and there is no work. -/
def Writers.Fresh (writers : Writers) : Prop :=
  writers.log.Pairwise (fun first second => first.seq < second.seq) ∧ writers.statusTurn = none ∧
    writers.calls = (fun _ => .start) ∧ writers.queries = [] ∧
    writers.answering = none ∧ writers.inbox = [] ∧ writers.worker = .idle

/-! ## Work and waiting entries -/

namespace CallPhase

/-- The entry of the call that is in the log and was not broadcast. -/
def held : CallPhase → Option Entry
  | .appended entry => some entry
  | .handed entry => some entry
  | .sent entry => some entry
  | _ => none

/-- The call has passed the check and not handed its query over. -/
def entering : CallPhase → Bool
  | .checked => true
  | .appended _ => true
  | _ => false

/-- The query was handed over and the entry not broadcast. -/
def delivering : CallPhase → Bool
  | .handed _ => true
  | .sent _ => true
  | _ => false

/-- The call is between its check and the broadcast of its entry. -/
def isOpen (phase : CallPhase) : Bool :=
  phase.entering || phase.delivering

/-- The query of the call was handed over. -/
def passed : CallPhase → Bool
  | .handed _ => true
  | .sent _ => true
  | .returned => true
  | _ => false

end CallPhase

/-- A turn, and whether nothing of it comes after this. -/
abbrev Work := Turn × Bool

def Kind.ends : Kind → Bool
  | .message => false
  | _ => true

def Item.work (item : Item) : Work := (item.turn, item.kind.ends)

namespace Message

/-- The turn that a reader ends with at this message. -/
def closes : Message → Option Turn
  | .turnComplete turn => some turn
  | .runtimeStatus turn => some turn
  | _ => none

end Message

namespace Worker

def item? : Worker → Option Item
  | .storing item _ => some item
  | .stored item _ => some item
  | _ => none

def held : Worker → List Entry
  | .stored _ entries => entries
  | _ => []

end Worker

namespace Writers

variable (writers : Writers)

/-- What the inbox task has not taken yet. -/
def queued : List Work :=
  writers.inbox.map Item.work ++ (writers.answering.toList ++ writers.queries).map (fun turn =>
      (turn, true))

/-- What is still to be done, in the order in which it will be done. -/
def work : List Work :=
  writers.worker.item?.toList.map Item.work ++ writers.queued

/-- The entry is in the log and waits for its broadcast. -/
def Waits (entry : Entry) : Prop :=
  (∃ call, (writers.calls call).held = some entry) ∨ entry ∈ writers.worker.held

/-- The turn was handed over, and nothing of it is still to be done. -/
def Finished (turn : Turn) : Prop :=
  (writers.calls turn).passed = true ∧ ∀ work ∈ writers.work, work.1 ≠ turn

/-- The result of the turn is with the inbox task. -/
def ResultPending (turn : Turn) : Prop :=
  ∃ item ∈ writers.worker.item?.toList ++ writers.inbox,
    item.turn = turn ∧ ∃ outcome, item.kind = .result outcome

end Writers

/-- The work of one turn: messages, and then what ends it. -/
inductive OneTurn (turn : Turn) : List Work → Prop where
  | last : OneTurn turn [(turn, true)]
  | message {rest : List Work} : OneTurn turn rest → OneTurn turn ((turn, false) :: rest)

namespace OneTurn

variable {turn other : Turn} {before after rest : List Work}

theorem turn_of_mem (one : OneTurn turn rest) : ∀ work ∈ rest, work.1 = turn := by
  induction one with
  | last => simp
  | message _ induction => simpa using induction

theorem ends_here (one : OneTurn turn ((other, true) :: rest)) : rest = [] := by
  cases one
  rfl

theorem tail (one : OneTurn turn ((other, false) :: rest)) : OneTurn turn rest := by
  cases one with
  | message one => exact one

theorem end_eq {work : List Work} (one : OneTurn turn work)
    (same : work = before ++ (other, true) :: after) :
    after = [] ∧ other = turn := by
  induction one generalizing before with
  | last =>
    cases before with
    | nil => simp_all
    | cons head before => simp at same
  | message _ induction =>
    cases before with
    | nil => simp at same
    | cons head before => exact induction (List.cons.inj same).2

theorem insert {work : List Work} (one : OneTurn turn work)
    (same : work = before ++ [(turn, true)]) :
    OneTurn turn (before ++ [(turn, false), (turn, true)]) := by
  induction one generalizing before with
  | last =>
    cases before with
    | nil => exact .message .last
    | cons head before => simp at same
  | message _ induction =>
    cases before with
    | nil => simp at same
    | cons head before =>
      obtain ⟨isHead, isRest⟩ := List.cons.inj same
      rw [← isHead]
      exact .message (induction isRest)

end OneTurn

/-! ## What a step can do -/

/-- Every step, with all it changes and broadcasts. -/
inductive Change (before : Writers) : WriterEvent → Writers → List Message → Prop where
  | refuse {call : Turn} :
      before.calls call = .start → before.status = .running →
      Change before (.check call) (before.setCall call .busy) []
  | pass {call : Turn} :
      before.calls call = .start → before.status ≠ .running →
      Change before (.check call) (before.setCall call .checked) []
  | append {call : Turn} :
      before.calls call = .checked →
      Change before (.append call) { before.setCall call
            (.appended { seq := before.nextSeq, turn := call }) with
          log := before.log ++ [{ seq := before.nextSeq, turn := call }] } []
  | handOver {call : Turn} {entry : Entry} :
      before.calls call = .appended entry →
      Change before (.handOver call)
        { before.setCall call (.handed entry) with
          status := .running
          statusTurn := some call
          queries := before.queries ++ [call] } []
  | accept {call : Turn} {rest : List Turn} {entry : Entry} :
      before.queries = call :: rest → before.answering = none →
      before.calls call = .handed entry →
      Change before .accept
        { before.setCall call (.sent entry) with
          queries := rest
          answering := some call } []
  | announce {call : Turn} {entry : Entry} :
      before.calls call = .sent entry →
      Change before (.announce call) (before.setCall call .returned) [.entry entry]
  | emit {turn : Turn} {item : Item} {count : Nat} :
      before.answering = some turn → item.turn = turn →
      item.kind = .message →
      Change before (.emit count)
        { before with inbox := before.inbox ++ [item] } [.other]
  | finish {turn : Turn} {item : Item} {outcome : Outcome} {count : Nat}
      {interrupts : Bool} :
      before.answering = some turn → item.turn = turn →
      item.kind = .result outcome →
      Change before (.finish outcome count interrupts)
        { before with
          answering := none
          inbox := before.inbox ++ [item] } [.result turn]
  | crash {turn : Turn} {item : Item} :
      before.answering = some turn → item.turn = turn →
      item.kind = .exit →
      Change before .crash
        { before with
          answering := none
          alive := false
          inbox := before.inbox ++ [item] } []
  | take {item : Item} {rest : List Item} :
      before.worker = .idle → before.inbox = item :: rest →
      Change before .take ({ before with inbox := rest }.proceed item).1
        ({ before with inbox := rest }.proceed item).2
  | store {item : Item} {count : Nat} :
      before.worker = .storing item count →
      Change before .store
        { before with
          log := before.log ++ before.newEntries item.turn count
          worker := .stored item (before.newEntries item.turn count) } []
  | fail {item : Item} {count : Nat} :
      before.worker = .storing item count →
      Change before .fail (before.giveUp item) []
  | resume {item : Item} {entries : List Entry} :
      before.worker = .stored item entries →
      Change before .resume (before.proceed item).1 (entries.map .entry ++ (before.proceed item).2)
  | close {turn : Turn} :
      before.worker = .closing turn →
      Change before .close { before with worker := .ended } [.runtimeStatus turn]

theorem write_change {before after : Writers} {event : WriterEvent} {messages : List Message}
    (step : write before event = some (after, messages)) :
    Change before event after messages := by
  cases event <;> simp only [write] at step
  case take =>
    split at step
    · next idle inbox =>
        obtain ⟨rfl, rfl⟩ := Prod.ext_iff.mp (Option.some.inj step)
        exact .take idle inbox
    · cases step
  -- What is left are the steps that can be taken, event by event.
  all_goals repeat' split at step
  all_goals cases step
  · next here isRunning => exact .refuse here isRunning
  · next here ready => exact .pass here ready
  · next here => exact .append here
  · next here => exact .handOver here
  · next queries answering _ _ _ here _ =>
      exact .accept queries answering here
  · next here => exact .announce here
  · next here => exact .emit here rfl rfl
  · next here => exact .finish here rfl rfl
  · next here => exact .crash here rfl rfl
  · next here => exact .store here
  · next here => exact .fail here
  · next here => exact .resume here
  · next here => exact .close here

end EntryStream

end MatrixSpooll.Session
