import MatrixSpooll.Library.Fold
import MatrixSpooll.Session.Actor

/-!
# No command is left behind

A command that was passed to `enqueue` is in the queue, in the hands of the
actor, or completed.  Every way out of the actor completes what it holds, with
two exceptions: when an exception leaves `_drive_query` nobody looks at the
command that the command task has already taken out of the queue, and when the
client fails to interrupt for a disconnect the disconnect itself is dropped.
-/

namespace MatrixSpooll.Session

open Library List Function

/-- A command that was passed is completed, queued or held, and is not done
before it is sent. -/
structure Placed (passed queue held : List CommandId) (id : CommandId)
    (command : CommandState) : Prop where
  accounts : id ∈ passed →
    (command.sent = true ∧ command.done = true) ∨ id ∈ queue ∨ id ∈ held
  ordered : command.done = true → command.sent = true

def Accounted (held : List CommandId) (mail : Mail) : Prop :=
  ∀ id, Placed mail.passed mail.queue held id (mail.commands id)

namespace Accounted

variable {held more : List CommandId} {mail : Mail} {id : CommandId}

theorem carry {after : Mail} (accounted : Accounted held mail)
    (commands : after.commands = mail.commands)
    (moves : ∀ id ∈ after.passed, id ∉ after.queue → id ∉ more →
      id ∈ mail.passed ∧ id ∉ mail.queue ∧ id ∉ held) :
    Accounted more after := by
  intro id
  rw [commands]
  refine ⟨?_, (accounted id).ordered⟩
  intro member
  by_contra nowhere
  rw [not_or, not_or] at nowhere
  obtain ⟨passed, unqueued, unheld⟩ := moves id member nowhere.2.1 nowhere.2.2
  rcases (accounted id).accounts passed with settled | queued | isHeld
  · exact nowhere.1 settled
  · exact unqueued queued
  · exact unheld isHeld

theorem weaken (accounted : Accounted held mail)
    (included : ∀ id ∈ held, id ∈ more) : Accounted more mail :=
  accounted.carry rfl (fun id passed unqueued unheld =>
    ⟨passed, unqueued, fun isHeld => unheld (included id isHeld)⟩)

theorem nextFirst {query next : CommandId} {pending : Option CommandId}
    (accounted : Accounted (query :: (pending.toList ++ [next])) mail) :
    Accounted (next :: query :: pending.toList) mail := by
  apply accounted.weaken
  intro id member
  simp only [mem_cons, mem_append, not_mem_nil, or_false] at member ⊢
  rcases member with isQuery | isAside | isNext
  · exact .inr (.inl isQuery)
  · exact .inr (.inr isAside)
  · exact .inl isNext

section

variable (accounted : Accounted (id :: held) mail)
include accounted

/-- A change that only sets events, and sets both of those of `id`. -/
theorem settle {update : CommandState → CommandState}
    (sets : (update (mail.commands id)).sent = true ∧ (update (mail.commands id)).done = true) :
    Accounted held (mail.change id update) := by
  apply (forall_update_iff mail.commands (Placed mail.passed mail.queue held)).mpr
  refine ⟨⟨fun _ => .inl sets, fun _ => sets.1⟩, ?_⟩
  intro other different
  refine ⟨?_, (accounted other).ordered⟩
  intro passed
  rcases (accounted other).accounts passed with settled | queued | isHeld
  · exact .inl settled
  · exact .inr (.inl queued)
  · exact .inr (.inr (mem_of_ne_of_mem different isHeld))

theorem complete (error : Option Failure) : Accounted held (mail.complete id error) :=
  accounted.settle ⟨rfl, rfl⟩

theorem setDone (isSent : (mail.commands id).sent = true) : Accounted held (mail.setDone id) :=
  accounted.settle ⟨isSent, rfl⟩

end

theorem setSent (accounted : Accounted held mail) : Accounted held (mail.setSent id) := by
  apply (forall_update_iff mail.commands (Placed mail.passed mail.queue held)).mpr
  refine ⟨⟨?_, fun _ => rfl⟩, fun other _ => accounted other⟩
  intro passed
  rcases (accounted id).accounts passed with settled | elsewhere
  · exact .inl ⟨rfl, settled.2⟩
  · exact .inr elsewhere

theorem release (accounted : Accounted (id :: held) mail) (error : Failure) :
    Accounted held (mail.release id error) := by
  unfold Mail.release
  split
  · next isDone =>
      intro other
      refine ⟨?_, (accounted other).ordered⟩
      intro passed
      rcases (accounted other).accounts passed with settled | queued | isHeld
      · exact .inl settled
      · exact .inr (.inl queued)
      · rcases mem_cons.mp isHeld with isId | rest
        · subst isId
          exact .inl ⟨(accounted other).ordered isDone, isDone⟩
        · exact .inr (.inr rest)
  · exact accounted.complete (some error)

theorem releasePending {pending : Option CommandId}
    (accounted : Accounted (pending.toList ++ held) mail) :
    Accounted held (mail.releasePending pending) := by
  cases pending with
  | none => exact accounted
  | some aside => exact accounted.release _

theorem put (accounted : Accounted (id :: held) mail) : Accounted held (mail.put id) := by
  refine accounted.carry rfl ?_
  intro other passed unqueued unheld
  simp only [Mail.put, mem_append, mem_singleton, not_or] at unqueued
  exact ⟨passed, unqueued.1, by simp [unqueued.2, unheld]⟩

theorem take {rest : List CommandId} (accounted : Accounted held mail)
    (queued : mail.queue = id :: rest) :
    Accounted (id :: held) { mail with queue := rest } := by
  refine accounted.carry rfl ?_
  intro other passed unqueued unheld
  rw [mem_cons, not_or] at unheld
  exact ⟨passed, by simp [queued, unheld.1, unqueued], unheld.2⟩

theorem pass (accounted : Accounted held mail) (id : CommandId) : Accounted (id :: held)
      { mail with passed := id :: mail.passed } := by
  refine accounted.carry rfl ?_
  intro other passed unqueued unheld
  rw [mem_cons, not_or] at unheld
  exact ⟨(mem_cons.mp passed).resolve_left unheld.1, unqueued, unheld.2⟩

theorem release_queue (mail : Mail) (error : Failure) :
    (mail.release id error).queue = mail.queue := by
  unfold Mail.release
  split <;> rfl

theorem drain (accounted : Accounted [] mail) (error : Failure) :
    Accounted [] (mail.drain error) ∧ (mail.drain error).queue = [] := by
  have emptied : Accounted mail.queue { mail with queue := [] } :=
    accounted.carry rfl (fun _ passed _ unqueued => ⟨passed, unqueued, not_mem_nil⟩)
  unfold Mail.drain
  apply foldl_loop (fun (rest : List CommandId) (drained : Mail) =>
    Accounted rest drained ∧ drained.queue = [])
  · intro id rest drained holds
    exact ⟨holds.1.release error, (release_queue drained error).trans holds.2⟩
  · exact ⟨emptied, rfl⟩

end Accounted

/-! ## What the actor holds -/

/-- The commands that the actor still has to complete or to hand on. -/
def Phase.held : Phase → List CommandId
  | .querying query => [query]
  | .driving query cmdTask pending _ => query :: (pending.toList ++ cmdTask.toList)
  | .interrupting query next pending _ => query :: (pending.toList ++ [next])
  | .disconnecting query next pending _ => query :: (pending.toList ++ [next])
  | _ => []

/-- The query that is driven has been sent. -/
def Phase.Sent (mail : Mail) : Phase → Prop
  | .driving query _ _ _ => (mail.commands query).sent = true
  | .interrupting query _ _ _ => (mail.commands query).sent = true
  | .disconnecting query _ _ _ => (mail.commands query).sent = true
  | _ => True

/-- The commands that are held and that no exception handler looks at. -/
def Phase.unclaimed : Phase → List CommandId
  | .driving _ cmdTask _ _ => cmdTask.toList
  | .disconnecting _ next _ _ => [next]
  | _ => []

/-- The step lets an exception out of `_drive_query`. -/
def Phase.throws : Phase → ActorEvent → Bool
  | .driving _ _ _ msgTask, .resume callback =>
    match msgTask with
    | some (.raised _) => true
    | some .message => callback.isSome
    | _ => false
  | .driving _ _ _ _, .aborts _ => true
  | .disconnecting _ _ _ _, .raises _ => true
  | .disconnecting _ _ _ _, .aborts _ => true
  | _, _ => false

/-- No exception leaves `_drive_query` while a command is unclaimed. -/
def HandsOver (actor : Actor) (event : ActorEvent) : Prop :=
  actor.phase.throws event = true → actor.phase.unclaimed = []

/-- What holds in every state of the actor. -/
structure Sound (actor : Actor) : Prop where
  accounted : Accounted actor.phase.held actor.mail
  sent : actor.phase.Sent actor.mail
  drained : ∀ fatal, actor.phase = .finished fatal → actor.mail.queue = []

variable {kind : CommandId → CommandType} {mail : Mail}
  {query next : CommandId} {pending : Option CommandId}

theorem Mail.sent_complete {id : CommandId}
    (isSent : (mail.commands id).sent = true) (other : CommandId) (error : Option Failure) :
    ((mail.complete other error).commands id).sent = true := by
  unfold Mail.complete Mail.change
  by_cases same : id = other
  · subst same
    simp only [update_self]
    rfl
  · simp only [update_of_ne same]
    exact isSent

theorem dispatch_sound (accounted : Accounted [next] mail) : Sound (dispatch kind mail next) := by
  unfold dispatch
  split
  · exact ⟨accounted.complete none, trivial, nofun⟩
  · exact ⟨accounted, trivial, nofun⟩
  · exact ⟨accounted.complete none, trivial, nofun⟩

theorem leave_sound (accounted : Accounted (query :: pending.toList) mail)
    (failure : Failure) : Sound (leave mail query pending failure) := by
  have reordered : Accounted (pending.toList ++ [query]) mail := by
    apply accounted.weaken
    intro id member
    simpa [or_comm] using member
  exact ⟨reordered.releasePending.complete (some failure), trivial, nofun⟩

theorem finish_sound (accounted : Accounted [] mail)
    (fatal : Option Failure) : Sound (finish mail fatal) := by
  obtain ⟨still, empty⟩ := accounted.drain (fatal.getD .actorClosed)
  exact ⟨still, trivial, fun _ _ => empty⟩

theorem serve_sound (accounted : Accounted (query :: (pending.toList ++ [next])) mail)
    (isSent : (mail.commands query).sent = true) :
    Sound (serve kind mail query next pending) := by
  unfold serve
  split
  · exact ⟨accounted, isSent, nofun⟩
  · exact ⟨accounted, isSent, nofun⟩
  · split
    · exact ⟨accounted.nextFirst.complete _, Mail.sent_complete isSent _ _,
        nofun⟩
    · exact ⟨accounted, isSent, nofun⟩

theorem resume_sound {cmdTask : Option CommandId} {msgTask : Option Received}
    {callback : Option Failure} {actor : Actor}
    (sound : Sound ⟨mail, .driving query cmdTask pending msgTask⟩)
    (handsOver : HandsOver ⟨mail, .driving query cmdTask pending msgTask⟩ (.resume callback))
    (resumed : resume kind mail query cmdTask pending msgTask callback =
      some actor) : Sound actor := by
  have accounted : Accounted (query :: (pending.toList ++ cmdTask.toList))
    mail := sound.accounted
  have isSent : (mail.commands query).sent = true := sound.sent
  -- An exception finds the command task empty.
  have leaves : ∀ failure, Phase.throws (.driving query cmdTask pending msgTask)
        (.resume callback) = true →
      Sound (leave mail query pending failure) := by
    intro failure throws
    have unclaimed : cmdTask.toList = [] := handsOver throws
    rw [unclaimed, append_nil] at accounted
    exact leave_sound accounted failure
  cases msgTask with
  | none =>
    cases cmdTask with
    | none => cases resumed
    | some next =>
      cases resumed
      exact serve_sound accounted isSent
  | some received =>
    cases received with
    | ended =>
      cases resumed
      have ended := accounted.setDone isSent
      unfold endQuery
      split
      · apply dispatch_sound
        apply Accounted.put
        apply ended.weaken
        intro id member
        simpa [or_comm] using member
      · exact dispatch_sound ended
      · exact dispatch_sound ended
      · exact ⟨ended, trivial, nofun⟩
    | raised failure =>
      cases resumed
      exact leaves failure rfl
    | message =>
      cases callback with
      | some failure =>
        cases resumed
        exact leaves failure rfl
      | none =>
        cases resumed
        cases cmdTask with
        | none => exact ⟨accounted, isSent, nofun⟩
        | some next => exact serve_sound accounted isSent

section Steps

variable {event : ActorEvent} {actor : Actor} {msgTask : Option Received}

theorem whileConnecting_sound (accounted : Accounted [] mail)
    (stepped : whileConnecting mail event = some actor) : Sound actor := by
  unfold whileConnecting at stepped
  split at stepped <;> cases stepped
  · exact ⟨accounted, trivial, nofun⟩
  all_goals exact finish_sound accounted _

theorem whileWaiting_sound (accounted : Accounted [] mail)
    (stepped : whileWaiting kind mail event = some actor) : Sound actor := by
  unfold whileWaiting at stepped
  split at stepped
  · split at stepped <;> cases stepped
    next id rest queued => exact dispatch_sound (accounted.take queued)
  · cases stepped
    exact ⟨accounted, trivial, nofun⟩
  · cases stepped

theorem whileQuerying_sound (accounted : Accounted [query] mail)
    (stepped : whileQuerying mail query event = some actor) :
    Sound actor := by
  unfold whileQuerying at stepped
  split at stepped <;> cases stepped
  · refine ⟨accounted.setSent, ?_, nofun⟩
    unfold Phase.Sent Mail.setSent Mail.change
    simp only [update_self]
  · next failure =>
        have sent : Accounted (query :: Option.toList none)
          (mail.setSent query) := accounted.setSent
        exact leave_sound sent failure
  all_goals
    rename_i failure
    have held : Accounted (query :: Option.toList none) mail := accounted
    exact leave_sound held failure

theorem whileDriving_sound {cmdTask : Option CommandId}
    (sound : Sound ⟨mail, .driving query cmdTask pending msgTask⟩)
    (handsOver : HandsOver ⟨mail, .driving query cmdTask pending msgTask⟩ event)
    (stepped : whileDriving kind mail query cmdTask pending msgTask event =
      some actor) : Sound actor := by
  have accounted : Accounted (query :: (pending.toList ++ cmdTask.toList))
    mail := sound.accounted
  have isSent : (mail.commands query).sent = true := sound.sent
  unfold whileDriving at stepped
  split at stepped
  · split at stepped <;> cases stepped
    rename_i id rest queued
    refine ⟨(accounted.take queued).weaken ?_, isSent, nofun⟩
    intro other member
    simp only [Option.toList_none, append_nil, mem_cons] at member
    simp only [Phase.held, Option.toList_some, mem_cons, mem_append, not_mem_nil, or_false]
    rcases member with isId | isQuery | isAside
    · exact .inr (.inr isId)
    · exact .inl isQuery
    · exact .inr (.inl isAside)
  · split at stepped <;> cases stepped
    exact ⟨accounted, isSent, nofun⟩
  · exact resume_sound sound handsOver stepped
  · next failure =>
      cases stepped
      have unclaimed : cmdTask.toList = [] := handsOver rfl
      rw [unclaimed, append_nil] at accounted
      exact leave_sound accounted failure
  · cases stepped

theorem whileInterrupting_sound (accounted : Accounted (query :: (pending.toList ++ [next])) mail)
    (isSent : (mail.commands query).sent = true)
    (stepped : whileInterrupting mail query next pending msgTask event =
      some actor) : Sound actor := by
  have nextFirst := accounted.nextFirst
  unfold whileInterrupting at stepped
  repeat' split at stepped
  all_goals cases stepped
  · exact ⟨accounted, isSent, nofun⟩
  · refine ⟨?_, Mail.sent_complete isSent _ _, nofun⟩
    have completed := nextFirst.complete none
    simpa [Phase.held] using completed
  all_goals
    rename_i failure
    exact leave_sound (nextFirst.complete _) failure

theorem whileDisconnecting_sound (sound : Sound ⟨mail, .disconnecting query next pending msgTask⟩)
    (handsOver : HandsOver ⟨mail, .disconnecting query next pending msgTask⟩ event)
    (stepped : whileDisconnecting kind mail query next pending msgTask event =
      some actor) : Sound actor := by
  have accounted : Accounted (query :: (pending.toList ++ [next])) mail := sound.accounted
  unfold whileDisconnecting at stepped
  split at stepped
  · split at stepped <;> cases stepped
    exact ⟨accounted, sound.sent, nofun⟩
  · cases stepped
    exact dispatch_sound (accounted.setDone sound.sent).releasePending
  · have unclaimed : [next] = [] := handsOver rfl
    cases unclaimed
  · have unclaimed : [next] = [] := handsOver rfl
    cases unclaimed
  · cases stepped

/-- One case for each thing that the actor waits for. -/
theorem awaited_sound {phase : Phase} (sound : Sound ⟨mail, phase⟩)
    (handsOver : HandsOver ⟨mail, phase⟩ event)
    (stepped : awaited kind mail event phase = some actor) :
    Sound actor := by
  cases phase with
  | idle => cases stepped
  | connecting => exact whileConnecting_sound sound.accounted stepped
  | waiting => exact whileWaiting_sound sound.accounted stepped
  | querying query => exact whileQuerying_sound sound.accounted stepped
  | driving query cmdTask pending msgTask =>
    exact whileDriving_sound sound handsOver stepped
  | interrupting query next pending msgTask =>
    exact whileInterrupting_sound sound.accounted sound.sent stepped
  | disconnecting query next pending msgTask =>
    exact whileDisconnecting_sound sound handsOver stepped
  | closing failure =>
    simp only [awaited, whileClosing] at stepped
    split at stepped <;> cases stepped
    all_goals exact finish_sound sound.accounted _
  | finished fatal => cases stepped

end Steps

theorem enqueue_sound {actor : Actor} (sound : Sound actor)
    (id : CommandId) : Sound (enqueue actor id) := by
  have passed := sound.accounted.pass id
  unfold enqueue
  split
  · next fatal isFinished =>
      rw [isFinished] at passed
      have empty := sound.drained fatal isFinished
      exact ⟨passed.complete _, trivial, fun _ _ => empty⟩
  · next running =>
      refine ⟨passed.put, sound.sent, ?_⟩
      intro fatal isFinished
      exact absurd isFinished (running fatal)

theorem start_sound {actor started : Actor} (sound : Sound actor)
    (stepped : start actor = some started) : Sound started := by
  unfold start at stepped
  split at stepped <;> cases stepped
  rename_i isIdle
  have accounted := sound.accounted
  rw [isIdle] at accounted
  exact ⟨accounted, trivial, nofun⟩

theorem Sound.invariant : ((actorSystem kind).restrict HandsOver).Invariant Sound := by
  constructor
  · intro actor isFresh
    rw [isFresh]
    exact ⟨fun _ => ⟨nofun, nofun⟩, trivial, nofun⟩
  · intro actor event next sound step
    obtain ⟨handsOver, stepped⟩ := step
    cases event with
    | enqueue id =>
      cases stepped
      exact enqueue_sound sound id
    | start => exact start_sound sound stepped
    | _ => exact awaited_sound sound handsOver stepped

/-- Once the actor has finished, every command that was passed to `enqueue`
has both its events set, if no exception left `_drive_query` while a command
was unclaimed. -/
theorem finished_actor_completed_commands (kind : CommandId → CommandType) (actor : Actor)
    (reachable : ((actorSystem kind).restrict HandsOver).Reachable actor)
    (fatal : Option Failure) (isFinished : actor.phase = .finished fatal) :
    ∀ id ∈ actor.mail.passed, (actor.mail.commands id).sent = true ∧
      (actor.mail.commands id).done = true := by
  have sound := Sound.invariant.reachable reachable
  have accounted := sound.accounted
  rw [isFinished] at accounted
  intro id passed
  rcases (accounted id).accounts passed with settled | queued | isHeld
  · exact settled
  · rw [sound.drained fatal isFinished] at queued
    cases queued
  · cases isHeld

/-- The first command is a query, the others are interrupts. -/
def queryThenInterrupts (id : CommandId) : CommandType :=
  if id = 0 then .query else .interrupt

/-- The message stream fails while an interrupt is still in the queue. -/
def servedEvents : List ActorEvent :=
  [.enqueue 0, .start, .returns, .takes, .returns, .enqueue 1,
    .receives (.raised (.client "stream")), .resume none, .returns]

theorem served_query_is_completed : ∃ actor, actor.phase = .finished (some (.client "stream")) ∧
      ((actorSystem queryThenInterrupts).restrict HandsOver).Reachable actor ∧
      actor.mail.passed = [1, 0] ∧
      ∀ id ∈ actor.mail.passed, (actor.mail.commands id).sent = true ∧
        (actor.mail.commands id).done = true := by
  have run : ((actorSystem queryThenInterrupts).restrict HandsOver).Run .fresh servedEvents _ :=
    .cons ⟨nofun, rfl⟩ (.cons ⟨nofun, rfl⟩ (.cons ⟨nofun, rfl⟩ (.cons ⟨nofun, rfl⟩
      (.cons ⟨nofun, rfl⟩ (.cons ⟨nofun, rfl⟩ (.cons ⟨nofun, rfl⟩ (.cons ⟨fun _ => rfl, rfl⟩
      (.cons ⟨nofun, rfl⟩ (.nil _)))))))))
  exact ⟨_, rfl, ⟨_, _, rfl, run⟩, rfl,
    finished_actor_completed_commands queryThenInterrupts _ ⟨_, _, rfl, run⟩ _ rfl⟩

/-- An interrupt is taken from the queue and the message stream fails before
the actor looks at it. -/
def droppedEvents : List ActorEvent :=
  [.enqueue 0, .start, .returns, .takes, .returns, .enqueue 1, .takes,
    .receives (.raised (.client "stream")), .resume none, .returns]

theorem taken_interrupt_is_dropped : ∃ actor, (actorSystem queryThenInterrupts).Reachable actor ∧
      actor.phase = .finished (some (.client "stream")) ∧
      1 ∈ actor.mail.passed ∧ (actor.mail.commands 1).sent = false ∧
      (actor.mail.commands 1).done = false := by
  refine ⟨_, ⟨.fresh, droppedEvents, rfl, .of_foldlM (fun _ _ _ step => step)
    rfl⟩, rfl, ?_, rfl, rfl⟩
  exact mem_cons_self

end MatrixSpooll.Session
