import MatrixSpooll.Library.Transition
import Mathlib.Algebra.Order.Ring.Unbundled.Rat

/-!
# The lease of the worker

`acquire_or_renew_lease` reads the clock, tries an `UPDATE` of the row that the
caller owns or that has expired, and falls back on an `INSERT`;
`release_lease` is a `DELETE`.  The three statements are atomic, any number of
calls is under way, and the clock of a call is as old as its last statement is
late.  The row is the latest answer of its owner, and whatever it replaced had
expired.  An answer that a later one has shortened is not in the row.
-/

namespace MatrixSpooll.Worker

open Library Function

structure WorkerLease (Owner : Type) where
  ownerId : Owner
  leaseUntil : Rat
  deriving DecidableEq

/-- A call of `acquire_or_renew_lease` before one of its statements. -/
inductive LeaseCall (Owner : Type) where
  | update (now : Rat) (lease : WorkerLease Owner)
  | insert (lease : WorkerLease Owner)

/-- The clock, the row of one lease name, the calls under way, and for each
owner its successful answers since its last release, the latest one first. -/
structure LeaseState (Owner : Type) where
  clock : Rat
  row : Option (WorkerLease Owner)
  call : Nat → Option (LeaseCall Owner)
  answers : Owner → List Rat

inductive LeaseEvent (Owner : Type) where
  | tick (later : Rat)
  | acquireOrRenewLease (call : Nat) (ownerId : Owner) (ttl : Rat)
  | resume (call : Nat)
  | releaseLease (ownerId : Owner)

namespace LeaseState

variable {Owner : Type} [DecidableEq Owner]

def start : LeaseState Owner :=
  { clock := 0
    row := none
    call := fun _ => none
    answers := fun _ => [] }

/-- The `WHERE` clause of the renewal. -/
def renewable (now : Rat) (ownerId : Owner) (row : WorkerLease Owner) : Bool :=
  row.ownerId = ownerId || row.leaseUntil ≤ now

variable (state : LeaseState Owner)

/-- The row is written and the call answers `True`. -/
def grant (call : Nat) (lease : WorkerLease Owner) : LeaseState Owner :=
  { state with
    row := some lease
    call := update state.call call none
    answers := update state.answers lease.ownerId
      (lease.leaseUntil :: state.answers lease.ownerId) }

/-- One statement of a call. -/
def resume (call : Nat) : LeaseCall Owner → LeaseState Owner
  | .update now lease =>
    if state.row.any (renewable now lease.ownerId) then
      state.grant call lease
    else
      { state with
        call := update state.call call (some (.insert lease)) }
  | .insert lease =>
    match state.row with
    | none => state.grant call lease
    | some _ =>
      -- the unique name refuses the row, and the call answers `False`
      { state with call := update state.call call none }

def next : LeaseEvent Owner → Option (LeaseState Owner)
  | .tick later => if state.clock ≤ later then some { state with clock := later } else none
  | .acquireOrRenewLease call ownerId ttl =>
    match state.call call with
    | some _ => none
    | none => some { state with
        call := update state.call call (some (.update state.clock
          { ownerId := ownerId
            leaseUntil := state.clock + max 1 ttl })) }
  | .resume call => (state.call call).map (state.resume call)
  | .releaseLease ownerId => some { state with
      row := state.row.filter (fun row => row.ownerId ≠ ownerId)
      answers := update state.answers ownerId [] }

def system : TransitionSystem (LeaseState Owner) (LeaseEvent Owner) :=
  .ofFunction start next

/-- Clock readings are not ahead, and a latest answer has expired or is what
the row says. -/
structure Held (state : LeaseState Owner) : Prop where
  behind : ∀ call now lease, state.call call = some (.update now lease) → now ≤ state.clock
  latest : ∀ ownerId leaseUntil, (state.answers ownerId).head? = some leaseUntil →
    leaseUntil ≤ state.clock ∨ state.row = some { ownerId := ownerId, leaseUntil := leaseUntil }

variable {state after : LeaseState Owner}

omit [DecidableEq Owner] in
theorem Held.behind_update (held : state.Held) {call : Nat} {new : Option (LeaseCall Owner)}
    (read : ∀ now lease, new = some (.update now lease) → now ≤ state.clock)
    (other : Nat) (now : Rat) (lease : WorkerLease Owner)
    (found : update state.call call new other = some (.update now lease)) : now ≤ state.clock := by
  by_cases same : other = call
  · rw [same, update_self] at found
    exact read now lease found
  · rw [update_of_ne same] at found
    exact held.behind other now lease found

/-- A grant replaces no row but one of the same owner or one that expired. -/
theorem Held.grant (held : state.Held) (call : Nat) {lease : WorkerLease Owner}
    (replaced : ∀ row, state.row = some row →
      row.ownerId = lease.ownerId ∨ row.leaseUntil ≤ state.clock) :
    (state.grant call lease).Held := by
  refine { behind := held.behind_update (by simp), latest := ?_ }
  intro ownerId leaseUntil answered
  by_cases same : ownerId = lease.ownerId
  · right
    subst same
    simp only [LeaseState.grant, update_self, List.head?_cons] at answered
    cases answered
    rfl
  · left
    simp only [LeaseState.grant, update_of_ne same] at answered
    rcases held.latest ownerId leaseUntil answered with expired | inRow
    · exact expired
    · exact (replaced _ inRow).resolve_left same

theorem Held.resume (held : state.Held) {call : Nat}
    {statement : LeaseCall Owner} (found : state.call call = some statement) :
    (state.resume call statement).Held := by
  cases statement with
  | update now lease =>
    simp only [LeaseState.resume]
    split
    · next renewed =>
        apply held.grant
        intro row isRow
        rw [isRow] at renewed
        simp only [Option.any_some, renewable, Bool.or_eq_true, decide_eq_true_eq] at renewed
        have early := held.behind call now lease found
        exact renewed.imp_right (fun expired => expired.trans early)
    · exact { behind := held.behind_update (by simp), latest := held.latest }
  | insert lease =>
    simp only [LeaseState.resume]
    cases isRow : state.row with
    | none =>
      apply held.grant
      intro row impossible
      rw [isRow] at impossible
      cases impossible
    | some row =>
      have latest := held.latest
      rw [isRow] at latest
      exact { behind := held.behind_update (by simp), latest := latest }

theorem Held.next {event : LeaseEvent Owner} (held : state.Held)
    (step : state.next event = some after) : after.Held := by
  cases event with
  | tick later =>
    simp only [LeaseState.next] at step
    split at step <;> cases step
    rename_i onward
    refine { behind := ?_, latest := ?_ }
    · intro call now lease found
      exact (held.behind call now lease found).trans onward
    · intro ownerId leaseUntil answered
      exact (held.latest ownerId leaseUntil answered).imp_left (fun expired => expired.trans onward)
  | acquireOrRenewLease call ownerId ttl =>
    simp only [LeaseState.next] at step
    split at step <;> cases step
    refine { behind := held.behind_update ?_, latest := held.latest }
    intro now lease isRead
    cases isRead
    exact le_refl _
  | resume call =>
    obtain ⟨statement, found, same⟩ := Option.map_eq_some_iff.mp step
    subst same
    exact held.resume found
  | releaseLease released =>
    cases step
    refine { behind := held.behind, latest := ?_ }
    intro ownerId leaseUntil answered
    by_cases same : ownerId = released
    · simp [same] at answered
    · simp only [update_of_ne same] at answered
      rcases held.latest ownerId leaseUntil answered with expired | inRow
      · exact .inl expired
      · exact .inr (by simp [inRow, same])

theorem held_invariant : (system : TransitionSystem (LeaseState Owner) (LeaseEvent Owner)).Invariant
      Held :=
  { initially := by
      intro state isStart
      subst isStart
      exact { behind := by simp [start], latest := by simp [start] }
    preserved := fun _ _ _ held step => held.next step }

/-- In every reachable state at most one owner's latest unreleased answer runs
beyond the clock. -/
theorem one_lease_holder (reachable : system.Reachable state)
    {first second : Owner} {firstUntil secondUntil : Rat}
    (firstAnswer : (state.answers first).head? = some firstUntil)
    (firstLives : state.clock < firstUntil)
    (secondAnswer : (state.answers second).head? = some secondUntil)
    (secondLives : state.clock < secondUntil) : first = second := by
  have held := held_invariant.reachable reachable
  have firstRow := (held.latest first firstUntil firstAnswer).resolve_left (not_le.mpr firstLives)
  have secondRow := (held.latest second secondUntil secondAnswer).resolve_left
    (not_le.mpr secondLives)
  rw [firstRow] at secondRow
  exact congrArg WorkerLease.ownerId (Option.some.inj secondRow)

/-- The first worker takes the lease for a hundred seconds. -/
def takeLease : List (LeaseEvent Bool) :=
  [.acquireOrRenewLease 0 true 100, .resume 0, .resume 0]

/-- The second worker is refused within that time and asks again after it. -/
def takeOver : List (LeaseEvent Bool) :=
  takeLease ++ [.tick 50, .acquireOrRenewLease 1 false 10, .resume 1, .resume 1, .tick 100,
    .acquireOrRenewLease 2 false 10, .resume 2]

theorem taken_lease_held_once : ∃ state : LeaseState Bool, system.Reachable state ∧
      state.answers true = [100] ∧ state.answers false = [110] ∧ state.clock < 110 ∧
      ∀ other leaseUntil, (state.answers other).head? = some leaseUntil →
        state.clock < leaseUntil → false = other := by
  have ran : (takeOver.foldlM next start).map (fun state =>
      (state.answers true, state.answers false, state.clock)) = some ([100], [110], 100) := by
    decide +kernel
  obtain ⟨state, reached, observed⟩ := Option.map_eq_some_iff.mp ran
  obtain ⟨first, second, isClock⟩ := by simpa only [Prod.mk.injEq] using observed
  have clock : state.clock < 110 := by
    rw [isClock]
    decide +kernel
  have reachable : system.Reachable state :=
    ⟨start, takeOver, rfl, .of_foldlM (fun _ _ _ step => step) reached⟩
  exact ⟨state, reachable, first, second, clock, fun _ _ other lives =>
    one_lease_holder reachable (by rw [second]; rfl) clock other lives⟩

/-- The first worker renews for one second; when that is over, the second
worker asks for ten. -/
def shortenLease : List (LeaseEvent Bool) :=
  takeLease ++ [.acquireOrRenewLease 1 true 1, .resume 1, .tick 2,
    .acquireOrRenewLease 2 false 10, .resume 2]

/-- The second worker gets the lease within the hundred seconds that the first
one was granted. -/
theorem shortened_lease_overlaps : ∃ state : LeaseState Bool, system.Reachable state ∧
      100 ∈ state.answers true ∧ state.clock < 100 ∧
      12 ∈ state.answers false ∧ state.clock < 12 := by
  obtain ⟨state, ran, facts⟩ : ∃ state : LeaseState Bool,
      shortenLease.foldlM next start = some state ∧ 100 ∈ state.answers true ∧ state.clock < 100 ∧
        12 ∈ state.answers false ∧ state.clock < 12 :=
    ⟨_, rfl, by decide +kernel⟩
  exact ⟨state, ⟨start, _, rfl, .of_foldlM (fun _ _ _ step => step) ran⟩, facts⟩

end LeaseState

end MatrixSpooll.Worker
