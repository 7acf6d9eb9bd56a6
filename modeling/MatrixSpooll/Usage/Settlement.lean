import MatrixSpooll.Library.Transition
import MatrixSpooll.Usage.Repository

/-!
# Settled calls stay settled

Any number of calls settle rows at the same time, and the read of one may come
long before its update.  `finalize_pending_by_call_id` only touches a pending
row, so it never changes a settled one.  `finish_call` does not ask, so a late
one overwrites what the recovery has settled.  Along every run in which each
`finish_call` still finds its row pending when it updates, a settled row never
changes again.
-/

namespace MatrixSpooll.Usage

open Library KeyedTable

variable {Amount : Type}

structure UsageStore (Amount : Type) where
  calls : CallTable Amount
  /-- Calls that have read their row and not updated it yet. -/
  settling : List (Settling Amount)

inductive UsageEvent (Amount : Type) where
  | startCall (id now : Nat) (request : StartRequest)
  | read (callId : Nat) (path : SettlePath) (status : String)
      (settlement : SettlementInput Amount) (finishedAt : Nat) (customPrice : CustomPrice Amount)
  | update (index : Nat)

namespace UsageStore

def empty : UsageStore Amount :=
  { calls := .empty
    settling := [] }

def next (pricing : Pricing Amount) (store : UsageStore Amount) :
    UsageEvent Amount → Option (UsageStore Amount)
  | .startCall id now request =>
    (store.calls.insert? (startedCall pricing id now request)).map
      (fun calls => { store with calls := calls })
  | .read callId path status settlement finishedAt customPrice =>
    match store.calls.find? callId with
    | none => some store
    | some row =>
      some { store with
        settling := store.settling ++
          [.ofRow pricing row path status settlement finishedAt customPrice] }
  | .update index =>
    (store.settling[index]?).map (fun settling =>
      { calls := (settling.update store.calls).1
        settling := store.settling.eraseIdx index })

def system (pricing : Pricing Amount) : TransitionSystem (UsageStore Amount) (UsageEvent Amount) :=
  .ofFunction empty (next pricing)

/-- A `finish_call` updates a row that is still pending. -/
def InTime (store : UsageStore Amount) : UsageEvent Amount → Prop
  | .update index => ∀ settling row outputPath errorMessage,
      store.settling[index]? = some settling →
      settling.path = .finishCall outputPath errorMessage →
      store.calls.find? settling.callId = some row → row.status = "pending"
  | _ => True

theorem next_keeps_settled {pricing : Pricing Amount}
    {store after : UsageStore Amount} {event : UsageEvent Amount}
    (inTime : store.InTime event) (step : store.next pricing event = some after)
    {callId : Nat} {row : ApiCall Amount} (found : store.calls.find? callId = some row)
    (settled : row.status ≠ "pending") :
    after.calls.find? callId = some row := by
  have key : row.id = callId := find?_key found
  cases event with
  | startCall id now request =>
    obtain ⟨calls, inserted, same⟩ := Option.map_eq_some_iff.mp step
    subst same
    have fresh := insert?_fresh inserted
    have lookup := find?_insert inserted callId
    rw [lookup]
    split
    · rename_i isNew
      rw [isNew, found] at fresh
      cases fresh
    · exact found
  | read readId path status settlement finishedAt customPrice =>
    simp only [next] at step
    split at step
    all_goals
      cases step
      exact found
  | update index =>
    obtain ⟨settling, underway, same⟩ := Option.map_eq_some_iff.mp step
    subst same
    -- an update in time does not match a row that is settled
    have unmatched : settling.matchesRow row = false := by
      unfold Settling.matchesRow
      cases path : settling.path with
      | finishCall outputPath errorMessage =>
        simp only [decide_eq_false_iff_not, key]
        rintro rfl
        exact settled (inTime settling row outputPath errorMessage underway path found)
      | finalizePendingByCallId => simp [settled]
    change (update store.calls settling.matchesRow
      settling.assign settling.id_assign).find? callId = some row
    rw [find?_update, found, Option.map_some, unmatched]
    rfl

/-- Along every run in which each `finish_call` updates a row that is still
pending, a row whose status has left pending never changes again. -/
theorem settled_call_immutable (pricing : Pricing Amount)
    {store later : UsageStore Amount} {events : List (UsageEvent Amount)}
    (run : ((system pricing).restrict InTime).Run store events later)
    {callId : Nat} {row : ApiCall Amount} (found : store.calls.find? callId = some row)
    (settled : row.status ≠ "pending") :
    later.calls.find? callId = some row := by
  apply run.preserves _ found
  intro current event after held step
  exact next_keeps_settled step.1 step.2 held settled

/-- Every call costs five dollars. -/
def flatPricing : Pricing Nat :=
  { zero := 0
    elapsedMs := fun startedAt finishedAt => finishedAt - startedAt
    calculateCost := fun _ _ _ => (5, "USD") }

def noPrice : CustomPrice Nat :=
  { priceInput := none
    priceOutput := none
    currency := none
    priceUnit := none }

/-- A video call that the recovery has settled as a success. -/
def recovered : UsageStore Nat :=
  ([.startCall 1 10 { callType := "video", model := "model" },
    .read 1 .finalizePendingByCallId "success" {} 20 noPrice,
    .update 0].foldlM (next flatPricing) empty).getD empty

/-- A second recovery of the call, while another call is finished in time. -/
def secondRecovery : List (UsageEvent Nat) :=
  [.startCall 2 25 { callType := "image", model := "model" },
    .read 2 (.finishCall none none) "success" {} 30 noPrice,
    .read 1 .finalizePendingByCallId "failed" {} 30 noPrice, .update 0, .update 0]

theorem recovered_call_immutable : ∃ later row finished,
      ((system flatPricing).restrict InTime).Run recovered secondRecovery later ∧
      recovered.calls.find? 1 = some row ∧ row.status = "success" ∧
      later.calls.find? 1 = some row ∧
      later.calls.find? 2 = some finished ∧ finished.status = "success" := by
  have run : ((system flatPricing).restrict InTime).Run recovered secondRecovery _ :=
    .cons ⟨trivial, rfl⟩ (.cons ⟨trivial, rfl⟩ (.cons ⟨trivial, rfl⟩
      (.cons ⟨fun _ _ _ _ underway _ found => (by
        cases underway
        cases found
        rfl), rfl⟩ (.cons ⟨fun _ _ _ _ underway isFinish => (by
        cases underway
        cases isFinish), rfl⟩ (.nil _)))))
  exact ⟨_, _, _, run, rfl, rfl, settled_call_immutable flatPricing run rfl (by decide), rfl, rfl⟩

/-- The late `finish_call` of the same call overwrites the settled row. -/
theorem late_finish_overwrites : ∃ later row overwritten, (system flatPricing).Reachable recovered ∧
      (system flatPricing).Run recovered
        [.read 1 (.finishCall none (some "timeout")) "failed" {} 30 noPrice, .update 0] later ∧
      recovered.calls.find? 1 = some row ∧ row.status = "success" ∧
      row.costAmount = 5 ∧
      later.calls.find? 1 = some overwritten ∧
      overwritten.status = "failed" ∧ overwritten.costAmount = 0 := by
  have reachable : (system flatPricing).Reachable recovered :=
    ⟨empty, [.startCall 1 10 { callType := "video", model := "model" },
        .read 1 .finalizePendingByCallId "success" {} 20 noPrice,
        .update 0],
      rfl, .of_foldlM (fun _ _ _ => id) rfl⟩
  exact ⟨_, _, _, reachable, .of_foldlM (fun _ _ _ => id) rfl, rfl, rfl, rfl,
    rfl, rfl, rfl⟩

end UsageStore

end MatrixSpooll.Usage
