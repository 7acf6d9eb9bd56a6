import MatrixSpooll.Library.Transition
import Mathlib.Data.List.ReduceOption

/-!
# The channel of a session stream

Every subscriber has a bounded queue.  A critical item that finds its queue
full pushes out one item that is not critical; when there is none, the queue is
emptied and the end of the stream is put in.  What a subscriber has received
and what its queue holds leave out only items that are not critical, until the
stream is told to end; from then on only the end is received.
-/

namespace MatrixSpooll.Session

open Library List

variable {Item : Type}

/-- An item in a queue, or `_END_OF_STREAM`. -/
abbrev Slot (Item : Type) := Option Item

/-- `EvictNonCriticalAndSignal` and the size of the queues. -/
structure OverflowPolicy (Item : Type) where
  queueMaxsize : Nat
  isCritical : Item → Bool

namespace OverflowPolicy

variable (policy : OverflowPolicy Item)

/-- `put_nowait`; `none` is `QueueFull`, and size zero is no bound. -/
def putNowait (queue : List (Slot Item)) (slot : Slot Item) : Option (List (Slot Item)) :=
  if 0 < policy.queueMaxsize ∧ policy.queueMaxsize ≤ queue.length then none
  else some (queue ++ [slot])

/-- The queue is drained and all but one item put back in order, for which
there is room. -/
def evictOneNonCritical (queue : List (Slot Item)) : List (Slot Item) :=
  queue.eraseP (fun slot => slot.any (fun item => !policy.isCritical item))

/-- The queue after `deliver`, and whether the subscriber stays. -/
def deliver (queue : List (Slot Item)) (item : Item) : List (Slot Item) × Bool :=
  match policy.putNowait queue (some item) with
  | some longer => (longer, true)
  | none =>
    if !policy.isCritical item then (queue, true)
    else
      let evicted := policy.evictOneNonCritical queue
      match policy.putNowait evicted (some item) with
      | some longer => (longer, true)
      | none => (evicted, false)

/-- The emptied queue with the signal. -/
def finalizeRemoval : List (Slot Item) :=
  (policy.putNowait [] none).getD []

end OverflowPolicy

/-- A queue with its reader: whether the channel still has it, what was
broadcast while it had, what the reader got, and whether its loop is over. -/
structure Subscriber (Item : Type) where
  queue : List (Slot Item)
  listed : Bool
  sent : List Item
  received : List Item
  returned : Bool

inductive ChannelEvent (Item : Type) where
  | subscribe (reader : Nat)
  | unsubscribe (reader : Nat)
  | broadcast (item : Item)
  | iterate (reader : Nat)

namespace Subscriber

def fresh : Subscriber Item :=
  { queue := []
    listed := true
    sent := []
    received := []
    returned := false }

/-- What a broadcast does to one queue. -/
def broadcast (policy : OverflowPolicy Item) (item : Item)
    (subscriber : Subscriber Item) : Subscriber Item :=
  if !subscriber.listed then subscriber
  else
    let (queue, kept) := policy.deliver subscriber.queue item
    { subscriber with
      queue := if kept then queue else policy.finalizeRemoval
      listed := kept
      sent := subscriber.sent ++ [item] }

/-- One turn of `iterate`; an empty queue gives `IDLE`. -/
def iterate (subscriber : Subscriber Item) : Subscriber Item :=
  if subscriber.returned then subscriber
  else
    match subscriber.queue with
    | [] => subscriber
    | none :: rest => { subscriber with queue := rest, returned := true }
    | some item :: rest =>
      { subscriber with
        queue := rest
        received := subscriber.received ++ [item] }

def react (policy : OverflowPolicy Item) (reader : Nat)
    (subscriber : Subscriber Item) : ChannelEvent Item → Subscriber Item
  | .subscribe _ => subscriber
  | .unsubscribe other =>
    if reader = other then { subscriber with listed := false }
    else subscriber
  | .broadcast item => subscriber.broadcast policy item
  | .iterate other => if reader = other then subscriber.iterate else subscriber

/-- The stream was told to end. -/
def Told (subscriber : Subscriber Item) : Prop :=
  none ∈ subscriber.queue ∨ subscriber.returned = true

end Subscriber

/-- Subscribers, each with the number of its queue. -/
abbrev SseChannel (Item : Type) := Nat → Option (Subscriber Item)

namespace SseChannel

def next (policy : OverflowPolicy Item) (channel : SseChannel Item)
    (event : ChannelEvent Item) : SseChannel Item := fun reader =>
  match channel reader, event with
  | some subscriber, event => some (subscriber.react policy reader event)
  | none, .subscribe other => if reader = other then some .fresh else none
  | none, _ => none

def system (policy : OverflowPolicy Item) :
    TransitionSystem (SseChannel Item) (ChannelEvent Item) :=
  .ofFunction (fun _ => none) (fun channel event => some (channel.next policy event))

end SseChannel

/-! ## One queue -/

namespace OverflowPolicy

variable {policy : OverflowPolicy Item}

theorem putNowait_eq_some {queue longer : List (Slot Item)} {slot : Slot Item}
    (put : policy.putNowait queue slot = some longer) :
    longer = queue ++ [slot] := by
  unfold putNowait at put
  split at put
  · cases put
  · exact (Option.some.inj put).symm

theorem filter_evictOneNonCritical (queue : List (Slot Item)) :
    (policy.evictOneNonCritical queue).reduceOption.filter policy.isCritical =
      queue.reduceOption.filter policy.isCritical := by
  unfold evictOneNonCritical
  induction queue with
  | nil => rfl
  | cons slot rest induction =>
    cases slot with
    | none => simpa using induction
    | some item =>
      cases critical : policy.isCritical item with
      | true => simpa [critical] using induction
      | false => simp [critical]

/-- A delivery that succeeds loses nothing critical and nothing of the
order. -/
theorem deliver_kept {queue : List (Slot Item)} {item : Item}
    (kept : (policy.deliver queue item).2 = true) :
    ∃ earlier : List (Slot Item), earlier.Sublist queue ∧
      earlier.reduceOption.filter policy.isCritical = queue.reduceOption.filter policy.isCritical ∧
      ((policy.deliver queue item).1 = earlier ++ [some item] ∨ policy.isCritical item = false ∧
          (policy.deliver queue item).1 = earlier) := by
  unfold deliver at kept ⊢
  cases put : policy.putNowait queue (some item) with
  | some longer => exact ⟨queue, Sublist.refl _, rfl, .inl (putNowait_eq_some put)⟩
  | none =>
    simp only [put] at kept ⊢
    cases critical : policy.isCritical item with
    | false => exact ⟨queue, Sublist.refl _, rfl, .inr ⟨rfl, rfl⟩⟩
    | true =>
      simp only [critical] at kept ⊢
      cases again : policy.putNowait (policy.evictOneNonCritical queue) (some item) with
      | none => simp [again] at kept
      | some longer =>
        exact ⟨policy.evictOneNonCritical queue, eraseP_sublist, filter_evictOneNonCritical queue,
          .inl (by simpa using putNowait_eq_some again)⟩

end OverflowPolicy

namespace Subscriber

variable {policy : OverflowPolicy Item} {subscriber : Subscriber Item}

/-- What was received and what is queued, in the order of the broadcasts and
with everything critical. -/
structure Complete (policy : OverflowPolicy Item) (subscriber : Subscriber Item) : Prop where
  untold : ¬ subscriber.Told
  ordered : (subscriber.received ++ subscriber.queue.reduceOption).Sublist subscriber.sent
  critical : (subscriber.received ++ subscriber.queue.reduceOption).filter
    policy.isCritical = subscriber.sent.filter policy.isCritical

/-- The end of the stream is all there is left of `earlier`. -/
structure Ended (earlier subscriber : Subscriber Item) : Prop where
  unlisted : subscriber.listed = false
  received : subscriber.received = earlier.received
  onlyEnd : subscriber.returned = true ∨ subscriber.queue = [none]

def Sound (policy : OverflowPolicy Item) (subscriber : Subscriber Item) : Prop :=
  subscriber.Complete policy ∨ subscriber.Ended subscriber

section

variable (complete : subscriber.Complete policy)
include complete

theorem Complete.iterate : subscriber.iterate.Complete policy := by
  obtain ⟨untold, ordered, critical⟩ := complete
  unfold Subscriber.iterate
  split
  · exact ⟨untold, ordered, critical⟩
  · cases slots : subscriber.queue with
    | nil => exact ⟨untold, ordered, critical⟩
    | cons slot rest =>
      rw [Told, slots, not_or] at untold
      rw [slots] at ordered critical
      cases slot with
      | none => exact absurd mem_cons_self untold.1
      | some item =>
        refine ⟨?_, by simpa using ordered, by simpa using critical⟩
        rw [Told, not_or]
        exact ⟨fun later => untold.1 (.tail _ later), untold.2⟩

theorem Complete.broadcast (positive : 0 < policy.queueMaxsize) (item : Item) :
    (subscriber.broadcast policy item).Sound policy := by
  unfold Subscriber.broadcast
  split
  · exact .inl complete
  · cases kept : (policy.deliver subscriber.queue item).2 with
    | false =>
      refine .inr ⟨kept, rfl, .inr ?_⟩
      simp [kept, OverflowPolicy.finalizeRemoval, OverflowPolicy.putNowait, Nat.ne_of_gt positive]
    | true =>
      obtain ⟨untold, ordered, critical⟩ := complete
      obtain ⟨earlier, sublist, same, result⟩ := OverflowPolicy.deliver_kept kept
      have within : (subscriber.received ++ earlier.reduceOption).Sublist subscriber.sent :=
        (Sublist.append_left (sublist.filterMap id) _).trans ordered
      rw [Told, not_or] at untold
      have unended : none ∉ earlier := fun member => untold.1 (sublist.subset member)
      rw [filter_append, ← same, ← filter_append] at critical
      left
      simp only [kept, if_true]
      rcases result with appended | ⟨unimportant, dropped⟩
      · rw [appended]
        refine ⟨by simp [Told, unended, untold.2], ?_, ?_⟩
        · rw [reduceOption_append, ← append_assoc]
          exact within.append (Sublist.refl [item])
        · rw [reduceOption_append, ← append_assoc, filter_append, critical, filter_append]
          rfl
      · rw [dropped]
        refine ⟨by simp [Told, unended, untold.2], ?_, ?_⟩
        · exact within.trans (sublist_append_left _ [item])
        · simpa [unimportant] using critical

theorem Complete.react (positive : 0 < policy.queueMaxsize) (reader : Nat)
    (event : ChannelEvent Item) : (subscriber.react policy reader event).Sound policy := by
  cases event with
  | subscribe other => exact .inl complete
  | unsubscribe other =>
    simp only [Subscriber.react]
    split
    · exact .inl ⟨complete.untold, complete.ordered, complete.critical⟩
    · exact .inl complete
  | broadcast item => exact complete.broadcast positive item
  | iterate other =>
    simp only [Subscriber.react]
    split
    · exact .inl complete.iterate
    · exact .inl complete

end

theorem Ended.react {earlier : Subscriber Item} (ended : Ended earlier subscriber) (reader : Nat)
    (event : ChannelEvent Item) :
    Ended earlier (subscriber.react policy reader event) := by
  cases event with
  | subscribe other => exact ended
  | unsubscribe other =>
    simp only [Subscriber.react]
    split
    · exact ⟨rfl, ended.received, ended.onlyEnd⟩
    · exact ended
  | broadcast item =>
    simp only [Subscriber.react, Subscriber.broadcast, ended.unlisted]
    exact ended
  | iterate other =>
    simp only [Subscriber.react, Subscriber.iterate]
    split
    · split
      · exact ended
      · next waiting =>
          rw [ended.onlyEnd.resolve_left waiting]
          exact ⟨ended.unlisted, ended.received, .inl rfl⟩
    · exact ended

theorem Sound.ended (sound : subscriber.Sound policy)
    (told : subscriber.Told) : Ended subscriber subscriber :=
  sound.resolve_left (fun complete => complete.untold told)

theorem Sound.complete (sound : subscriber.Sound policy)
    (untold : ¬ subscriber.Told) : subscriber.Complete policy := by
  refine sound.resolve_right (fun ended => untold ?_)
  rcases ended.onlyEnd with returned | isEnd
  · exact .inr returned
  · exact .inl (isEnd ▸ mem_singleton_self none)

end Subscriber

/-! ## Whole runs -/

namespace SseChannel

variable {policy : OverflowPolicy Item} {channel : SseChannel Item}
  {reader : Nat} {subscriber : Subscriber Item}

theorem sound_invariant (positive : 0 < policy.queueMaxsize) :
    (system policy).Invariant (fun channel => ∀ reader subscriber,
      channel reader = some subscriber → subscriber.Sound policy) :=
  { initially := by
      intro channel isStart reader subscriber found
      subst isStart
      cases found
    preserved := by
      intro channel event after sound step reader subscriber found
      cases step
      cases before : channel reader with
      | some earlier =>
        simp only [next, before] at found
        cases found
        rcases sound reader earlier before with complete | ended
        · exact complete.react positive reader event
        · exact .inr { ended.react reader event with received := rfl }
      | none =>
        cases event with
        | subscribe other =>
          simp only [next, before] at found
          split at found <;> cases found
          exact .inl ⟨by simp [Subscriber.Told, Subscriber.fresh], Sublist.refl _, rfl⟩
        | _ => simp [next, before] at found }

theorem ended_run {events : List (ChannelEvent Item)}
    {after : SseChannel Item} (run : (system policy).Run channel events after)
    (ended : ∃ later, channel reader = some later ∧ subscriber.Ended later) :
    ∃ later, after reader = some later ∧ subscriber.Ended later := by
  induction run with
  | nil => exact ended
  | @cons before _ _ event _ step _ induction =>
    obtain ⟨later, isLater, laterEnded⟩ := ended
    cases step
    exact induction ⟨later.react policy reader event,
      by simp only [next, isLater], laterEnded.react reader event⟩

/-- Until its stream is told to end a subscriber has received or queued, in
the order of the broadcasts, all critical items since it subscribed; from then
on it receives nothing but the end. -/
theorem critical_items_kept (positive : 0 < policy.queueMaxsize)
    (reachable : (system policy).Reachable channel)
    (found : channel reader = some subscriber) : (¬ subscriber.Told →
      (subscriber.received ++ subscriber.queue.reduceOption).Sublist subscriber.sent ∧
        (subscriber.received ++ subscriber.queue.reduceOption).filter
          policy.isCritical = subscriber.sent.filter policy.isCritical) ∧
    (subscriber.Told → ∀ events after, (system policy).Run channel events after →
      ∃ later, after reader = some later ∧ later.received = subscriber.received ∧
        (later.returned = true ∨ later.queue = [none])) := by
  have sound := (sound_invariant positive).reachable reachable reader subscriber found
  constructor
  · intro untold
    exact ⟨(sound.complete untold).ordered, (sound.complete untold).critical⟩
  · intro told events after run
    obtain ⟨later, isLater, ended⟩ := ended_run run ⟨subscriber, found, sound.ended told⟩
    exact ⟨later, isLater, ended.received, ended.onlyEnd⟩

/-- A queue of one place: the second critical item ends the stream. -/
theorem overrun_subscriber_ends : ∃ (channel : SseChannel Bool) (subscriber : Subscriber Bool),
      (system ⟨1, id⟩).Reachable channel ∧ channel 0 = some subscriber ∧
      subscriber.sent = [false, true, true] ∧ subscriber.Told ∧
      ∀ events after, (system ⟨1, id⟩).Run channel events after →
        ∃ later, after 0 = some later ∧ later.received = [] ∧
          (later.returned = true ∨ later.queue = [none]) := by
  have reachable : (system ⟨1, id⟩).Reachable _ :=
    ⟨_, [.subscribe 0, .broadcast false, .broadcast true, .broadcast true],
      rfl, .cons rfl (.cons rfl (.cons rfl (.cons rfl (.nil _))))⟩
  have told : Subscriber.Told ⟨[none], false, [false, true, true], [], false⟩ :=
    .inl (mem_singleton_self none)
  exact ⟨_, _, reachable, rfl, rfl, told, (critical_items_kept Nat.one_pos reachable rfl).2 told⟩

end SseChannel

end MatrixSpooll.Session
