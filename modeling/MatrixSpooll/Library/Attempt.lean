/-!
# Computations that keep their state when they raise

`Attempt State Failure` is the effect of a procedure that changes `State` and
may raise: what it has changed before it raises stays changed.  `Ensures`
gives such a procedure a condition for the start, one for the normal return
and one for the raise, and the rules below build it from those of its parts.
-/

namespace MatrixSpooll.Library

def Attempt (State Failure Value : Type) : Type :=
  State → Except Failure Value × State

namespace Attempt

variable {State Failure First Second Value : Type}

instance : Monad (Attempt State Failure) where
  pure value := fun state => (.ok value, state)
  bind first rest := fun state =>
    match first state with
    | (.ok value, middle) => rest value middle
    | (.error failure, middle) => (.error failure, middle)

/-- Raise what `failure` makes of the state unless `condition` holds in it. -/
def demand (condition : State → Bool) (failure : State → Failure) :
    Attempt State Failure Unit := fun state =>
  if condition state then (.ok (), state)
  else (.error (failure state), state)

def change (update : State → State) : Attempt State Failure Unit :=
  fun state => (.ok (), update state)

def read (view : State → Value) : Attempt State Failure Value :=
  fun state => (.ok (view state), state)

def raise (failure : Failure) : Attempt State Failure Value :=
  fun state => (.error failure, state)

/-- Raise `failure` where there is no value. -/
def ofOption (failure : Failure) : Option Value → Attempt State Failure Value
  | some value => pure value
  | none => raise failure

def commit (transaction : State → Except Failure (Value × State)) :
    Attempt State Failure Value := fun state =>
  match transaction state with
  | .ok (value, next) => (.ok value, next)
  | .error failure => (.error failure, state)

def branch (condition : State → Bool)
    (yes no : Attempt State Failure Value) : Attempt State Failure Value :=
  fun state => if condition state then yes state else no state

/-- `try: body except BaseException: …; raise` with a clean-up that does not
raise itself but may replace the exception. -/
def orUndo (body : Attempt State Failure Value) (undo : Failure → State → Failure × State) :
    Attempt State Failure Value := fun state =>
  match body state with
  | (.ok value, final) => (.ok value, final)
  | (.error failure, final) => (.error (undo failure final).1, (undo failure final).2)

def forEach (items : List First) (body : First → Attempt State Failure Unit) :
    Attempt State Failure Unit :=
  match items with
  | [] => pure ()
  | item :: rest => do
      body item
      forEach rest body

variable {first : Attempt State Failure First}
  {rest : First → Attempt State Failure Second} {start : State}

theorem bind_of_ok {middle : State} {value : First} (ran : first start = (.ok value, middle)) :
    (first >>= rest) start = rest value middle := by
  show (match first start with
    | (.ok value, next) => rest value next
    | (.error failure, next) => (.error failure, next)) = _
  rw [ran]

variable {failure : Failure}

theorem bind_of_error {middle : State} (ran : first start = (.error failure, middle)) :
    (first >>= rest) start = (.error failure, middle) := by
  show (match first start with
    | (.ok value, next) => rest value next
    | (.error failure, next) => (.error failure, next)) = _
  rw [ran]

variable {final : State}

theorem bind_returned {result : Second} (ran : (first >>= rest) start = (.ok result, final)) :
    ∃ value middle, first start = (.ok value, middle) ∧
      rest value middle = (.ok result, final) := by
  cases ended : first start with
  | mk outcome middle =>
    cases outcome with
    | ok value =>
      rw [bind_of_ok ended] at ran
      exact ⟨value, middle, rfl, ran⟩
    | error failure =>
      rw [bind_of_error ended] at ran
      cases ran

theorem bind_raised (ran : (first >>= rest) start = (.error failure, final)) :
    first start = (.error failure, final) ∨ ∃ value middle, first start = (.ok value, middle) ∧
        rest value middle = (.error failure, final) := by
  cases ended : first start with
  | mk outcome middle =>
    cases outcome with
    | ok value =>
      rw [bind_of_ok ended] at ran
      exact .inr ⟨value, middle, rfl, ran⟩
    | error other =>
      rw [bind_of_error ended] at ran
      cases ran
      exact .inl rfl

variable {value : Value}

theorem ofOption_returned {found : Option Value}
    (ran : ofOption failure found start = (.ok value, final)) :
    final = start ∧ found = some value := by
  cases found with
  | none => cases ran
  | some stored =>
    cases ran
    exact ⟨rfl, rfl⟩

theorem commit_of_ok {transaction : State → Except Failure (Value × State)}
    {next : State} (committed : transaction start = .ok (value, next)) :
    commit transaction start = (.ok value, next) := by
  unfold commit
  rw [committed]

theorem commit_returned {transaction : State → Except Failure (Value × State)}
    (ran : commit transaction start = (.ok value, final)) :
    transaction start = .ok (value, final) := by
  unfold commit at ran
  split at ran <;> cases ran
  next committed => exact committed

theorem demand_returned {condition : State → Bool} {failure : State → Failure}
    {value : Unit} (ran : demand condition failure start = (.ok value, final)) :
    final = start ∧ condition start = true := by
  unfold demand at ran
  split at ran <;> cases ran
  next holds => exact ⟨rfl, holds⟩

/-- From `start` the computation returns in a state that meets `returned` or
raises in one that meets `raised`. -/
structure Ensures (start : State) (attempt : Attempt State Failure Value)
    (returned : Value → State → Prop) (raised : State → Prop) : Prop where
  ok : ∀ {value final}, attempt start = (.ok value, final) → returned value final
  error : ∀ {failure final}, attempt start = (.error failure, final) → raised final

namespace Ensures

variable {start : State} {raised : State → Prop}
  {returned : Value → State → Prop} {attempt : Attempt State Failure Value}

theorem of_outcome (holds : match attempt start with
      | (.ok value, final) => returned value final
      | (.error _, final) => raised final) :
    Ensures start attempt returned raised := by
  constructor
  · intro value final ran
    rw [ran] at holds
    exact holds
  · intro failure final ran
    rw [ran] at holds
    exact holds

theorem congr {other : Attempt State Failure Value} (ensured : Ensures start other returned raised)
    (same : attempt start = other start) :
    Ensures start attempt returned raised :=
  { ok := fun ran => ensured.ok (same ▸ ran)
    error := fun ran => ensured.error (same ▸ ran) }

protected theorem pure {value : Value} (holds : returned value start) :
    Ensures start (pure value : Attempt State Failure Value) returned
      raised :=
  of_outcome holds

variable {middle : First → State → Prop}

protected theorem bind {returned : Second → State → Prop}
    {stopped : State → Prop} (ofFirst : Ensures start first middle stopped)
    (onStop : ∀ state, stopped state → raised state) (ofRest : ∀ value state, middle value state →
      Ensures state (rest value) returned raised) :
    Ensures start (first >>= rest) returned raised := by
  constructor
  · intro result final ran
    obtain ⟨value, state, passed, ended⟩ := bind_returned ran
    exact (ofRest value state (ofFirst.ok passed)).ok ended
  · intro failure final ran
    rcases bind_raised ran with early | ⟨value, state, passed, ended⟩
    · exact onStop final (ofFirst.error early)
    · exact (ofRest value state (ofFirst.ok passed)).error ended

theorem seq {returned : Second → State → Prop} (ofFirst : Ensures start first middle raised)
    (ofRest : ∀ value state, middle value state → Ensures state (rest value) returned raised) :
    Ensures start (first >>= rest) returned raised :=
  ofFirst.bind (fun _ stopped => stopped) ofRest

protected theorem raise {failure : Failure} (holds : raised start) :
    Ensures start (raise failure : Attempt State Failure Value) returned
      raised :=
  of_outcome holds

protected theorem commit {transaction : State → Except Failure (Value × State)}
    (committed : ∀ value next, transaction start = .ok (value, next) →
      returned value next) (refused : raised start) :
    Ensures start (commit transaction) returned raised := by
  apply of_outcome
  unfold commit
  cases ran : transaction start with
  | ok result => exact committed result.1 result.2 ran
  | error failure => exact refused

protected theorem weaken {returned' : Value → State → Prop}
    {raised' : State → Prop} (ensured : Ensures start attempt returned raised)
    (onReturn : ∀ value state, returned value state → returned' value state)
    (onRaise : ∀ state, raised state → raised' state) :
    Ensures start attempt returned' raised' := by
  constructor
  · intro value final ran
    exact onReturn value final (ensured.ok ran)
  · intro failure final ran
    exact onRaise final (ensured.error ran)

variable {condition : State → Bool}

theorem demand_last {failure : State → Failure} {returned : Unit → State → Prop}
    (fails : condition start = false → raised start)
    (holds : condition start = true → returned () start) :
    Ensures start (demand condition failure) returned raised := by
  apply of_outcome
  unfold demand
  cases met : condition start with
  | true => exact holds met
  | false => exact fails met

protected theorem demand {failure : State → Failure} {rest : Unit → Attempt State Failure Value}
    (fails : condition start = false → raised start)
    (ofRest : condition start = true → Ensures start (rest ()) returned raised) :
    Ensures start (demand condition failure >>= rest) returned raised := by
  have first : Ensures start (demand condition failure)
      (fun _ state => state = start ∧ condition start = true) raised :=
    demand_last fails (fun met => ⟨rfl, met⟩)
  apply first.seq
  intro _ state passed
  rw [passed.1]
  exact ofRest passed.2

protected theorem change {update : State → State} {rest : Unit → Attempt State Failure Value}
    (ofRest : Ensures (update start) (rest ()) returned raised) :
    Ensures start (change update >>= rest) returned raised :=
  { ok := fun ran => ofRest.ok ran
    error := fun ran => ofRest.error ran }

protected theorem read {view : State → First} {rest : First → Attempt State Failure Value}
    (ofRest : Ensures start (rest (view start)) returned raised) :
    Ensures start (read view >>= rest) returned raised :=
  { ok := fun ran => ofRest.ok ran
    error := fun ran => ofRest.error ran }

/-! The same at the end of a computation. -/

theorem change_last {update : State → State}
    {returned : Unit → State → Prop} (holds : returned () (update start)) :
    Ensures start (change update : Attempt State Failure Unit) returned
      raised :=
  of_outcome holds

theorem read_last {view : State → Value} (holds : returned (view start) start) :
    Ensures start (read view : Attempt State Failure Value) returned
      raised :=
  of_outcome holds

protected theorem branch {yes no : Attempt State Failure Value}
    (ofYes : condition start = true → Ensures start yes returned raised)
    (ofNo : condition start = false → Ensures start no returned raised) :
    Ensures start (branch condition yes no) returned raised := by
  cases met : condition start with
  | true => exact (ofYes met).congr (if_pos met)
  | false => exact (ofNo met).congr (if_neg (by simp [met]))

variable {body : Attempt State Failure Value}
  {undo : Failure → State → Failure × State} {interrupted : State → Prop}

theorem orUndo_raised (ofBody : Ensures start body returned interrupted)
    (undone : ∀ failure state, body start = (.error failure, state) →
      interrupted state → raised (undo failure state).2) :
    Ensures start (body.orUndo undo) returned raised := by
  apply of_outcome
  unfold orUndo
  cases ran : body start with
  | mk outcome final =>
    cases outcome with
    | ok value => exact ofBody.ok ran
    | error failure => exact undone failure final ran (ofBody.error ran)

protected theorem orUndo (ofBody : Ensures start body returned interrupted)
    (undone : ∀ failure state, interrupted state → raised (undo failure state).2) :
    Ensures start (body.orUndo undo) returned raised :=
  ofBody.orUndo_raised (fun failure state _ => undone failure state)

/-- What every turn of a loop keeps, with the items already visited. -/
protected theorem forEach {body : First → Attempt State Failure Unit}
    {items : List First} (kept : List First → State → Prop)
    (turn : ∀ visited item rest state, visited ++ item :: rest = items → kept visited state →
      Ensures state (body item) (fun _ => kept (visited ++ [item])) raised)
    (holds : kept [] start) :
    Ensures start (forEach items body) (fun _ => kept items) raised := by
  have from_visited : ∀ rest visited state, visited ++ rest = items → kept visited state →
      Ensures state (forEach rest body) (fun _ => kept items) raised := by
    intro rest
    induction rest with
    | nil =>
      intro visited state split before
      rw [List.append_nil] at split
      subst split
      exact Ensures.pure before
    | cons item rest induction =>
      intro visited state split before
      apply Ensures.seq (turn visited item rest state split before)
      intro _ next after
      apply induction (visited ++ [item]) next
      · rw [List.append_assoc]
        exact split
      · exact after
  exact from_visited items [] start rfl holds

/-- The same for a loop that carries a value from turn to turn. -/
protected theorem foldlM {body : Value → First → Attempt State Failure Value}
    {items : List First} {carried : Value} (kept : List First → Value → State → Prop)
    (turn : ∀ visited item rest value state, visited ++ item :: rest = items →
      kept visited value state →
      Ensures state (body value item) (kept (visited ++ [item])) raised)
    (holds : kept [] carried start) :
    Ensures start (items.foldlM body carried) (kept items) raised := by
  have from_visited : ∀ rest visited value state, visited ++ rest = items →
      kept visited value state →
      Ensures state (rest.foldlM body value) (kept items) raised := by
    intro rest
    induction rest with
    | nil =>
      intro visited value state split before
      rw [List.append_nil] at split
      subst split
      exact Ensures.pure before
    | cons item rest induction =>
      intro visited value state split before
      rw [List.foldlM_cons]
      apply Ensures.seq (turn visited item rest value state split before)
      intro next middle after
      apply induction (visited ++ [item]) next middle
      · rw [List.append_assoc]
        exact split
      · exact after
  exact from_visited items [] carried start rfl holds

end Ensures

/-! ## Computations that never raise some failures -/

def Spares (attempt : Attempt State Failure Value) (bad : Failure → Prop) : Prop :=
  ∀ start failure final, attempt start = (.error failure, final) → ¬ bad failure

namespace Spares

variable {bad : Failure → Prop}

protected theorem pure (value : Value) : Spares (pure value : Attempt State Failure Value) bad := by
  intro start failure final ran
  cases ran

protected theorem read (view : State → Value) :
    Spares (read view : Attempt State Failure Value) bad := by
  intro start failure final ran
  cases ran

protected theorem commit {transaction : State → Except Failure (Value × State)}
    (good : ∀ start failure, transaction start = .error failure → ¬ bad failure) :
    Spares (commit transaction) bad := by
  intro start failure final ran
  unfold Attempt.commit at ran
  split at ran <;> cases ran
  next refused => exact good start failure refused

protected theorem raise {failure : Failure} (good : ¬ bad failure) :
    Spares (raise failure : Attempt State Failure Value) bad := by
  intro start stated final ran
  cases ran
  exact good

protected theorem bind (ofFirst : Spares first bad) (ofRest : ∀ value, Spares (rest value) bad) :
    Spares (first >>= rest) bad := by
  intro start failure final ran
  rcases bind_raised ran with early | late
  · exact ofFirst start failure final early
  · obtain ⟨value, middle, _, ended⟩ := late
    exact ofRest value middle failure final ended

protected theorem foldlM {body : Value → First → Attempt State Failure Value}
    (turn : ∀ value item, Spares (body value item) bad) (items : List First)
    (carried : Value) : Spares (items.foldlM body carried) bad := by
  induction items generalizing carried with
  | nil => exact Spares.pure carried
  | cons item rest induction =>
    rw [List.foldlM_cons]
    exact Spares.bind (turn carried item) induction

end Spares

/-! ## Computations that only read -/

def ReadOnly (attempt : Attempt State Failure Value) : Prop :=
  ∀ start, (attempt start).2 = start

namespace ReadOnly

protected theorem pure (value : Value) : ReadOnly (pure value : Attempt State Failure Value) :=
  fun _ => rfl

protected theorem raise (failure : Failure) :
    ReadOnly (raise failure : Attempt State Failure Value) :=
  fun _ => rfl

protected theorem read (view : State → Value) :
    ReadOnly (read view : Attempt State Failure Value) :=
  fun _ => rfl

protected theorem ofOption (failure : Failure) (found : Option Value) :
    ReadOnly (ofOption failure found : Attempt State Failure Value) := by
  intro start
  cases found with
  | none | some value => rfl

protected theorem demand (condition : State → Bool)
    (failure : State → Failure) : ReadOnly (demand condition failure) := by
  intro start
  unfold demand
  split <;> rfl

protected theorem bind (ofFirst : ReadOnly first)
    (ofRest : ∀ value, ReadOnly (rest value)) : ReadOnly (first >>= rest) := by
  intro start
  have same := ofFirst start
  cases ended : first start with
  | mk outcome middle =>
    rw [ended] at same
    subst same
    cases outcome with
    | ok value =>
      rw [bind_of_ok ended]
      exact ofRest value middle
    | error failure => rw [bind_of_error ended]

theorem state_eq {attempt : Attempt State Failure Value}
    (readOnly : ReadOnly attempt) {outcome : Except Failure Value}
    (ran : attempt start = (outcome, final)) : final = start := by
  have same := readOnly start
  rw [ran] at same
  exact same

end ReadOnly

/-! ## Computations that return -/

def Returns (start : State) (attempt : Attempt State Failure Value) : Prop :=
  ∃ value final, attempt start = (.ok value, final)

namespace Returns

variable {start : State}

protected theorem bind (ofFirst : Returns start first)
    (ofRest : ∀ value state, first start = (.ok value, state) →
      Returns state (rest value)) : Returns start (first >>= rest) := by
  obtain ⟨value, state, ran⟩ := ofFirst
  obtain ⟨result, final, ended⟩ := ofRest value state ran
  refine ⟨result, final, ?_⟩
  rw [bind_of_ok ran]
  exact ended

protected theorem orUndo {body : Attempt State Failure Value}
    {undo : Failure → State → Failure × State} (ofBody : Returns start body) :
    Returns start (body.orUndo undo) := by
  obtain ⟨value, final, ran⟩ := ofBody
  refine ⟨value, final, ?_⟩
  unfold orUndo
  rw [ran]

variable {condition : State → Bool}

theorem demand_last {failure : State → Failure} (met : condition start = true) :
    Returns start (demand condition failure) :=
  ⟨(), start, if_pos met⟩

protected theorem demand {failure : State → Failure} {rest : Unit → Attempt State Failure Value}
    (met : condition start = true) (ofRest : Returns start (rest ())) :
    Returns start (demand condition failure >>= rest) := by
  apply Returns.bind (demand_last met)
  intro _ state ran
  have passed : demand condition failure start = (.ok (), start) := if_pos met
  rw [passed] at ran
  cases ran
  exact ofRest

protected theorem branch {yes no : Attempt State Failure Value}
    (ofYes : condition start = true → Returns start yes)
    (ofNo : condition start = false → Returns start no) :
    Returns start (branch condition yes no) := by
  cases met : condition start with
  | true =>
    obtain ⟨value, final, ran⟩ := ofYes met
    exact ⟨value, final, (if_pos met).trans ran⟩
  | false =>
    obtain ⟨value, final, ran⟩ := ofNo met
    exact ⟨value, final, (if_neg (by simp [met])).trans ran⟩

end Returns

theorem Ensures.sure {attempt : Attempt State Failure Value}
    {returned : Value → State → Prop} {raised : State → Prop}
    (ensured : Ensures start attempt returned raised)
    (returns : Returns start attempt) (raised' : State → Prop) :
    Ensures start attempt returned raised' := by
  obtain ⟨value, final, ran⟩ := returns
  constructor
  · intro result state ended
    exact ensured.ok ended
  · intro failure state ended
    rw [ran] at ended
    cases ended

end Attempt

end MatrixSpooll.Library
