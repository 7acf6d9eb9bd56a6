import MatrixSpooll.Library.Transition
import MatrixSpooll.Session.Repository

/-!
# Sending messages to a session

Calls of `send_message` on one resident session.  A call is modelled by where
it is suspended.  A query of the database and the resumption of the call with
its result are two steps, so that other calls may run in between, and so are
the answer of the actor and the resumption of the call that waits for it.
-/

namespace MatrixSpooll.Session

open Library

namespace SendMessage

/-- Calls are named by numbers. -/
abbrev CallId := Nat

/-- What a call passes: whether it has an entry for the log, and the key by
which its retries are recognised. -/
structure Request where
  hasEntry : Bool
  clientKey : Option String

/-- A user entry of the log.  The identifier that is made for the entry of a
call is named by the call. -/
structure LogRow where
  seq : Nat
  author : CallId
  clientKey : Option String
  deriving DecidableEq

/-- Where a call is suspended, or how it has ended. -/
inductive Phase where
  | start
  | prechecked (found : Option LogRow)
  | rechecking
  | rechecked (found : Option LogRow)
  | inserting
  | inserted (row : LogRow)
  | conflicted
  | reread (found : Option LogRow)
  | marking (entry : Option LogRow)
  | delivering (entry : Option LogRow)
  | answered (entry : Option LogRow) (delivered : Bool)
  | undelivered (row : LogRow)
  | returned (entry : Option LogRow)
  | busy
  | integrityError
  | failed
  deriving DecidableEq

/-- The client has taken the prompt of the call. -/
def Phase.taken : Phase → Bool
  | .answered _ delivered => delivered
  | .returned _ => true
  | _ => false

/-- The session.  `accepted` are the calls whose query was handed to the
actor, `unfinished` those of them whose turn is not over, `delivered` those
whose prompt the client has taken. -/
structure Conversation where
  status : SessionStatus
  log : List LogRow
  phase : CallId → Phase
  accepted : List CallId
  unfinished : List CallId
  delivered : List CallId

namespace Conversation

variable (conversation : Conversation)

def move (call : CallId) (phase : Phase) : Conversation :=
  { conversation with
    phase := Function.update conversation.phase call phase }

def findByClientKey (key : String) : Option LogRow :=
  conversation.log.find? (fun row => row.clientKey = some key)

/-- The lookup of a call that has a key. -/
def lookUp (key : Option String) : Option LogRow :=
  key.bind conversation.findByClientKey

/-- `coalesce(max(seq), -1) + 1`. -/
def nextSeq : Nat :=
  (conversation.log.map (fun row => row.seq + 1)).foldr max 0

def newRow (call : CallId) (key : Option String) : LogRow :=
  { seq := conversation.nextSeq
    author := call
    clientKey := key }

end Conversation

open Conversation

/-- `if client_key:`. -/
def hasKey : Option String → Bool
  | none => false
  | some key => key ≠ ""

/-- Where a call goes on after the check of the status: `append_user_entry`
looks the key up again before it inserts. -/
def afterCheck (request : Request) : Phase :=
  if request.hasEntry then
    if hasKey request.clientKey then .rechecking else .inserting
  else .marking none

def check (request : Request) (status : SessionStatus) : Phase :=
  if status = .running then .busy else afterCheck request

/-- `append_user_entry` has an entry: it is new if it is the own one. -/
def settle (call : CallId) (row : LogRow) : Phase :=
  if row.author = call then .marking (some row) else .returned (some row)

variable (request : CallId → Request) (conversation : Conversation)

/-- The unique index on session and key. -/
def conflicts (key : Option String) : Bool :=
  (conversation.lookUp key).isSome

/-- The entry of a failed delivery is deleted, if there is one. -/
def afterFailure : Option LogRow → Phase
  | some row => .undelivered row
  | none => .failed

/-- The next step of a call that does not wait for the actor. -/
def advance (call : CallId) : Option Conversation :=
  match conversation.phase call with
  | .start =>
    if (request call).hasEntry && (request call).clientKey.isSome then
      some (conversation.move call (.prechecked (conversation.lookUp (request call).clientKey)))
    else
      some (conversation.move call (check (request call) conversation.status))
  | .prechecked (some row) => some (conversation.move call (.returned (some row)))
  | .prechecked none =>
    some (conversation.move call (check (request call) conversation.status))
  | .rechecking =>
    some (conversation.move call (.rechecked (conversation.lookUp (request call).clientKey)))
  | .rechecked (some row) => some (conversation.move call (.returned (some row)))
  | .rechecked none => some (conversation.move call .inserting)
  | .inserting =>
    if conflicts conversation (request call).clientKey then
      some (conversation.move call .conflicted)
    else
      some { conversation.move call (.inserted
          (conversation.newRow call (request call).clientKey)) with
        log := conversation.log ++ [conversation.newRow call (request call).clientKey] }
  | .inserted row => some (conversation.move call (settle call row))
  | .conflicted =>
    some (conversation.move call (.reread (conversation.lookUp (request call).clientKey)))
  | .reread (some row) => some (conversation.move call (settle call row))
  | .reread none => some (conversation.move call .integrityError)
  | .marking entry =>
    some { conversation.move call (.delivering entry) with
      status := .running
      accepted := conversation.accepted ++ [call]
      unfinished := conversation.unfinished ++ [call] }
  | .answered entry true => some (conversation.move call (.returned entry))
  | .answered entry false =>
    some { conversation.move call (afterFailure entry) with
      status := .error }
  | .undelivered row =>
    some { conversation.move call .failed with
      log := conversation.log.filter (fun stored => stored.seq ≠ row.seq) }
  | _ => none

/-- The actor answers the query of a call: the client has taken the prompt, or
the command has an error. -/
def answer (call : CallId) (taken : Bool) : Option Conversation :=
  match conversation.phase call, taken with
  | .delivering entry, true =>
    some { conversation.move call (.answered entry true) with
      delivered := conversation.delivered ++ [call] }
  | .delivering entry, false =>
    some { conversation.move call (.answered entry false) with
      unfinished := conversation.unfinished.erase call }
  | _, _ => none

/-- `_finalize_turn` of the query that the client works on. -/
def finalize (status : SessionStatus) : Option Conversation :=
  match conversation.unfinished with
  | [] => none
  | call :: rest =>
    if call ∈ conversation.delivered then
      some { conversation with
        status := status
        unfinished := rest }
    else none

inductive Event where
  | advance (call : CallId)
  | answer (call : CallId) (taken : Bool)
  | finalize (status : SessionStatus)
  deriving DecidableEq

def next : Event → Option Conversation
  | .advance call => advance request conversation call
  | .answer call taken => SendMessage.answer conversation call taken
  | .finalize status => SendMessage.finalize conversation status

def initially (status : SessionStatus) : Conversation :=
  { status := status
    log := []
    phase := fun _ => .start
    accepted := []
    unfinished := []
    delivered := [] }

/-- All interleavings of the calls, of the answers of the actor and of the
ends of turns. -/
def messageSystem : TransitionSystem Conversation Event :=
  { initial := fun conversation => ∃ status, conversation = initially status
    step := fun conversation event target => next request conversation event = some target }

/-! ## What a step can do -/

/-- The steps that change nothing but the phase of the call. -/
inductive Quiet (request : Request) (conversation : Conversation)
    (call : CallId) : Phase → Phase → Prop where
  | precheck : request.hasEntry = true → request.clientKey.isSome = true →
      Quiet request conversation call .start (.prechecked (conversation.lookUp request.clientKey))
  | checkAtOnce :
      (request.hasEntry && request.clientKey.isSome) = false →
      Quiet request conversation call .start (check request conversation.status)
  | hit (row : LogRow) :
      Quiet request conversation call (.prechecked (some row)) (.returned (some row))
  | check : Quiet request conversation call (.prechecked none) (check request conversation.status)
  | recheck :
      Quiet request conversation call .rechecking
        (.rechecked (conversation.lookUp request.clientKey))
  | hitAgain (row : LogRow) :
      Quiet request conversation call (.rechecked (some row)) (.returned (some row))
  | miss : Quiet request conversation call (.rechecked none) .inserting
  | conflict : conflicts conversation request.clientKey = true →
      Quiet request conversation call .inserting .conflicted
  | settle (row : LogRow) : Quiet request conversation call (.inserted row) (settle call row)
  | reread :
      Quiet request conversation call .conflicted (.reread (conversation.lookUp request.clientKey))
  | settleOther (row : LogRow) :
      Quiet request conversation call (.reread (some row)) (settle call row)
  | gone : Quiet request conversation call (.reread none) .integrityError
  | confirm (entry : Option LogRow) :
      Quiet request conversation call (.answered entry true) (.returned entry)

/-- Every step, with all it changes. -/
inductive Change (request : CallId → Request) (before : Conversation) :
    Event → Conversation → Prop where
  | quiet {call : CallId} {new : Phase} :
      Quiet (request call) before call (before.phase call) new →
      Change request before (.advance call) (before.move call new)
  | insert {call : CallId} :
      before.phase call = .inserting →
      conflicts before (request call).clientKey = false →
      Change request before (.advance call) { before.move call (.inserted
            (before.newRow call (request call).clientKey)) with
          log := before.log ++ [before.newRow call (request call).clientKey] }
  | handOver {call : CallId} {entry : Option LogRow} :
      before.phase call = .marking entry →
      Change request before (.advance call)
        { before.move call (.delivering entry) with
          status := .running
          accepted := before.accepted ++ [call]
          unfinished := before.unfinished ++ [call] }
  | notice {call : CallId} {entry : Option LogRow} :
      before.phase call = .answered entry false →
      Change request before (.advance call)
        { before.move call (afterFailure entry) with status := .error }
  | withdraw {call : CallId} {row : LogRow} :
      before.phase call = .undelivered row →
      Change request before (.advance call)
        { before.move call .failed with
          log := before.log.filter (fun stored => stored.seq ≠ row.seq) }
  | deliver {call : CallId} {entry : Option LogRow} :
      before.phase call = .delivering entry →
      Change request before (.answer call true)
        { before.move call (.answered entry true) with
          delivered := before.delivered ++ [call] }
  | refuse {call : CallId} {entry : Option LogRow} :
      before.phase call = .delivering entry →
      Change request before (.answer call false)
        { before.move call (.answered entry false) with
          unfinished := before.unfinished.erase call }
  | finish {call : CallId} {rest : List CallId} {status : SessionStatus} :
      before.unfinished = call :: rest → call ∈ before.delivered →
      Change request before (.finalize status)
        { before with
          status := status
          unfinished := rest }

theorem advance_change {request : CallId → Request} {before after : Conversation} {call : CallId}
    (step : advance request before call = some after) :
    Change request before (.advance call) after := by
  unfold advance at step
  repeat' split at step
  all_goals cases step
  · next isStart keyed =>
      rw [Bool.and_eq_true] at keyed
      exact .quiet (isStart ▸ .precheck keyed.1 keyed.2)
  · next isStart unkeyed =>
      exact .quiet (isStart ▸ .checkAtOnce (Bool.eq_false_iff.mpr unkeyed))
  · next row here => exact .quiet (here ▸ .hit row)
  · next here => exact .quiet (here ▸ .check)
  · next here => exact .quiet (here ▸ .recheck)
  · next row here => exact .quiet (here ▸ .hitAgain row)
  · next here => exact .quiet (here ▸ .miss)
  · next here taken => exact .quiet (here ▸ .conflict taken)
  · next here free => exact .insert here (Bool.eq_false_iff.mpr free)
  · next row here => exact .quiet (here ▸ .settle row)
  · next here => exact .quiet (here ▸ .reread)
  · next row here => exact .quiet (here ▸ .settleOther row)
  · next here => exact .quiet (here ▸ .gone)
  · next entry here => exact .handOver here
  · next entry here => exact .quiet (here ▸ .confirm entry)
  · next entry here => exact .notice here
  · next row here => exact .withdraw here

theorem next_change {request : CallId → Request} {before after : Conversation}
    {event : Event} (step : next request before event = some after) :
    Change request before event after := by
  cases event with
  | advance call => exact advance_change step
  | answer call taken =>
    simp only [next, answer] at step
    split at step <;> cases step
    · next here => exact .deliver here
    · next here => exact .refuse here
  | finalize status =>
    simp only [next, finalize] at step
    repeat' split at step
    all_goals cases step
    next here delivered => exact .finish here delivered

@[simp] theorem move_phase_self (call : CallId) (phase : Phase) :
    (conversation.move call phase).phase call = phase :=
  Function.update_self ..

theorem move_phase_of_ne {call other : CallId} (different : other ≠ call) (phase : Phase) :
    (conversation.move call phase).phase other = conversation.phase other :=
  Function.update_of_ne different ..

theorem mem_of_lookUp {conversation : Conversation} {key : Option String}
    {row : LogRow} (found : conversation.lookUp key = some row) :
    row ∈ conversation.log ∧ ∃ text, key = some text ∧ row.clientKey = some text := by
  obtain ⟨text, isKey, stored⟩ := Option.bind_eq_some_iff.mp found
  refine ⟨List.mem_of_find?_eq_some stored, text, isKey, ?_⟩
  have holds := List.find?_some stored
  exact of_decide_eq_true holds

end SendMessage

end MatrixSpooll.Session
