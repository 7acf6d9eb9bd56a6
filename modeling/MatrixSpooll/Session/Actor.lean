import MatrixSpooll.Library.Transition
import Mathlib.Logic.Function.Basic

/-!
# The session actor

One task owns the client of a session.  Callers put commands into its queue
and wait for the two events of a command, `sent` and `done`.  The task is
modelled by what it is waiting for; between two awaits it runs alone.  While it
drives a query it has two helper tasks, one that waits for the next message of
the client and one that waits for the next command, and either may end before
the actor runs again.
-/

namespace MatrixSpooll.Session

open Library

inductive CommandType where
  | query
  | interrupt
  | disconnect
  deriving DecidableEq

/-- What a command is completed with, by where it comes from. -/
inductive Failure where
  | actorClosed
  | sessionBusy
  | cancelled
  | client (text : String)
  deriving DecidableEq

/-- The events and the outcome of a command. -/
structure CommandState where
  sent : Bool
  done : Bool
  error : Option Failure
  accepted : Bool
  deriving DecidableEq

def CommandState.fresh : CommandState :=
  { sent := false
    done := false
    error := none
    accepted := false }

/-- `SessionCommand.complete`. -/
def CommandState.complete (command : CommandState) (error : Option Failure) : CommandState :=
  { command with
    sent := true
    done := true
    error := error.or command.error }

/-- Commands are named by numbers. -/
abbrev CommandId := Nat

/-- The commands with their events, the queue, and the commands that were
ever passed to `enqueue`. -/
structure Mail where
  commands : CommandId → CommandState
  queue : List CommandId
  passed : List CommandId

namespace Mail

variable (mail : Mail)

def change (id : CommandId) (update : CommandState → CommandState) : Mail :=
  { mail with
    commands := Function.update mail.commands id (update (mail.commands id)) }

def complete (id : CommandId) (error : Option Failure) : Mail :=
  mail.change id (fun command => command.complete error)

def setDone (id : CommandId) : Mail :=
  mail.change id (fun command => { command with done := true })

/-- `cmd.accepted = True` and `cmd.sent.set()`. -/
def setSent (id : CommandId) : Mail :=
  mail.change id (fun command =>
    { command with
      accepted := true
      sent := true })

def put (id : CommandId) : Mail :=
  { mail with queue := mail.queue ++ [id] }

/-- `if not cmd.done.is_set(): cmd.complete(error)`. -/
def release (id : CommandId) (error : Failure) : Mail :=
  if (mail.commands id).done then mail else mail.complete id (some error)

/-- `_drain_pending_commands`. -/
def drain (error : Failure) : Mail :=
  mail.queue.foldl (fun drained id => drained.release id error)
    { mail with queue := [] }

/-- The `finally` of `_drive_query` for the query that was put aside. -/
def releasePending : Option CommandId → Mail
  | none => mail
  | some id => mail.release id (((mail.commands id).error).getD .actorClosed)

end Mail

/-- How the task that waits for a message has ended. -/
inductive Received where
  | message
  | ended
  | raised (failure : Failure)
  deriving DecidableEq

/-- What the actor waits for.  While a query is driven: the command that the
finished command task holds, the query that was put aside and what the message
task has ended with. -/
inductive Phase where
  | idle
  | connecting
  | waiting
  | querying (query : CommandId)
  | driving (query : CommandId) (cmdTask pending : Option CommandId)
      (msgTask : Option Received)
  | interrupting (query next : CommandId) (pending : Option CommandId)
      (msgTask : Option Received)
  | disconnecting (query next : CommandId) (pending : Option CommandId)
      (msgTask : Option Received)
  | closing (failure : Option Failure)
  | finished (fatal : Option Failure)
  deriving DecidableEq

structure Actor where
  mail : Mail
  phase : Phase

def Actor.fresh : Actor :=
  { mail :=
      { commands := fun _ => .fresh
        queue := []
        passed := [] }
    phase := .idle }

/-- What happens next.  `returns`, `raises` and `aborts` end the await that the
actor is in, the last one with a `BaseException` such as the cancellation of
the task.  `unstreamable` is a query after which `receive_response` raises,
`swallows` an `__aexit__` that suppresses the exception.  `resume` lets the
actor run after `asyncio.wait`, with what `on_message` raises, if it does. -/
inductive ActorEvent where
  | enqueue (id : CommandId)
  | start
  | takes
  | receives (received : Received)
  | resume (callback : Option Failure)
  | returns
  | unstreamable (failure : Failure)
  | swallows
  | raises (failure : Failure)
  | aborts (failure : Failure)

section Steps

variable (kind : CommandId → CommandType) (actor : Actor) (mail : Mail)

/-- One turn of `_command_loop` up to its next await. -/
def dispatch (id : CommandId) : Actor :=
  match kind id with
  | .disconnect => ⟨mail.complete id none, .closing none⟩
  | .query => ⟨mail, .querying id⟩
  | .interrupt => ⟨mail.complete id none, .waiting⟩

variable (query next : CommandId)

/-- An exception passes through `_drive_query` and `_command_loop`. -/
def leave (pending : Option CommandId) (failure : Failure) : Actor :=
  ⟨(mail.releasePending pending).complete query (some failure), .closing (some failure)⟩

/-- The end of `_run`. -/
def finish (fatal : Option Failure) : Actor :=
  ⟨mail.drain (fatal.getD .actorClosed), .finished fatal⟩

/-- The message stream has ended. -/
def endQuery (cmdTask pending : Option CommandId) : Actor :=
  match pending, cmdTask with
  | some handedOff, some next => dispatch kind ((mail.setDone query).put next) handedOff
  | some handedOff, none => dispatch kind (mail.setDone query) handedOff
  | none, some next => dispatch kind (mail.setDone query) next
  | none, none => ⟨mail.setDone query, .waiting⟩

/-- The command that the command task has brought. -/
def serve (pending : Option CommandId) : Actor :=
  match kind next with
  | .interrupt => ⟨mail, .interrupting query next pending none⟩
  | .disconnect => ⟨mail, .disconnecting query next pending none⟩
  | .query =>
    match pending with
    | some aside =>
      ⟨mail.complete next (some .sessionBusy), .driving query none (some aside) none⟩
    | none => ⟨mail, .driving query none (some next) none⟩

/-- What the loop does with a command task that may have ended. -/
def serveIfTaken (cmdTask pending : Option CommandId) : Actor :=
  match cmdTask with
  | some next => serve kind mail query next pending
  | none => ⟨mail, .driving query none pending none⟩

/-- The actor after `asyncio.wait`; one of the two tasks has ended. -/
def resume (cmdTask pending : Option CommandId) (msgTask : Option Received)
    (callback : Option Failure) : Option Actor :=
  match msgTask with
  | some .ended => some (endQuery kind mail query cmdTask pending)
  | some (.raised failure) => some (leave mail query pending failure)
  | some .message =>
    match callback with
    | some failure => some (leave mail query pending failure)
    | none => some (serveIfTaken kind mail query cmdTask pending)
  | none =>
    match cmdTask with
    | some next => some (serve kind mail query next pending)
    | none => none

/-- `enqueue`.  The queue has no bound, so `put` does not wait, and the task
cannot end between the check and it. -/
def enqueue (id : CommandId) : Actor :=
  let mail := { actor.mail with passed := id :: actor.mail.passed }
  match actor.phase with
  | .finished fatal => ⟨mail.complete id (some (fatal.getD .actorClosed)), .finished fatal⟩
  | phase => ⟨mail.put id, phase⟩

/-! The steps out of each await. -/

def whileConnecting : ActorEvent → Option Actor
  | .returns => some ⟨mail, .waiting⟩
  | .raises failure => some (finish mail (some failure))
  | .aborts failure => some (finish mail (some failure))
  | _ => none

def whileWaiting : ActorEvent → Option Actor
  | .takes =>
    match mail.queue with
    | [] => none
    | id :: rest => some (dispatch kind { mail with queue := rest } id)
  | .aborts failure => some ⟨mail, .closing (some failure)⟩
  | _ => none

def whileQuerying : ActorEvent → Option Actor
  | .returns => some ⟨mail.setSent query, .driving query none none none⟩
  | .unstreamable failure => some (leave (mail.setSent query) query none failure)
  | .raises failure => some (leave mail query none failure)
  | .aborts failure => some (leave mail query none failure)
  | _ => none

def whileDriving (cmdTask pending : Option CommandId) (msgTask : Option Received) :
    ActorEvent → Option Actor
  | .takes =>
    match cmdTask, mail.queue with
    | none, id :: rest =>
      some ⟨{ mail with queue := rest }, .driving query (some id) pending msgTask⟩
    | _, _ => none
  | .receives received =>
    match msgTask with
    | none => some ⟨mail, .driving query cmdTask pending (some received)⟩
    | some _ => none
  | .resume callback => resume kind mail query cmdTask pending msgTask callback
  | .aborts failure => some (leave mail query pending failure)
  | _ => none

/-- `await client.interrupt()` for an interrupt command. -/
def whileInterrupting (pending : Option CommandId) (msgTask : Option Received) :
    ActorEvent → Option Actor
  | .receives received =>
    match msgTask with
    | none => some ⟨mail, .interrupting query next pending (some received)⟩
    | some _ => none
  | .returns => some ⟨mail.complete next none, .driving query none pending msgTask⟩
  | .raises failure =>
    some (leave (mail.complete next (some failure)) query pending failure)
  | .aborts failure => some (leave (mail.complete next none) query pending failure)
  | _ => none

/-- `await client.interrupt()` for a disconnect command. -/
def whileDisconnecting (pending : Option CommandId) (msgTask : Option Received) :
    ActorEvent → Option Actor
  | .receives received =>
    match msgTask with
    | none => some ⟨mail, .disconnecting query next pending (some received)⟩
    | some _ => none
  | .returns => some (dispatch kind ((mail.setDone query).releasePending pending) next)
  | .raises failure => some (leave mail query pending failure)
  | .aborts failure => some (leave mail query pending failure)
  | _ => none

/-- `__aexit__` of the client. -/
def whileClosing (failure : Option Failure) : ActorEvent → Option Actor
  | .returns => some (finish mail failure)
  | .swallows => some (finish mail none)
  | .raises raised => some (finish mail (some raised))
  | .aborts raised => some (finish mail (some raised))
  | _ => none

def awaited (event : ActorEvent) : Phase → Option Actor
  | .idle => none
  | .connecting => whileConnecting mail event
  | .waiting => whileWaiting kind mail event
  | .querying query => whileQuerying mail query event
  | .driving query cmdTask pending msgTask =>
    whileDriving kind mail query cmdTask pending msgTask event
  | .interrupting query next pending msgTask =>
    whileInterrupting mail query next pending msgTask event
  | .disconnecting query next pending msgTask =>
    whileDisconnecting kind mail query next pending msgTask event
  | .closing failure => whileClosing mail failure event
  | .finished _ => none

/-- `create_task(self._run())`, up to its first await. -/
def start : Option Actor :=
  match actor.phase with
  | .idle => some ⟨actor.mail, .connecting⟩
  | _ => none

def actorNext : ActorEvent → Option Actor
  | .enqueue id => some (enqueue actor id)
  | .start => start actor
  | event => awaited kind actor.mail event actor.phase

/-- All interleavings of the actor with its callers and its client. -/
def actorSystem : TransitionSystem Actor ActorEvent :=
  .ofFunction .fresh (actorNext kind)

end Steps

end MatrixSpooll.Session
