import MatrixSpooll.Library.KeyedTable
import MatrixSpooll.Library.Truthy

/-!
# Usage records

`lib/db/repositories/usage_repo.py`: `start_call`, and the two ways a call is
settled, `finish_call` and `finalize_pending_by_call_id`, with the `_settle`
they share.  A settling call reads the row first and updates it later; what it
read and computed is a `Settling` value in between.

Amounts are of an arbitrary type: they are floats that the repository only
passes on.  Elapsed time and the price list are parameters for the same reason,
and the price of a custom provider is what the database held when it was read.
-/

namespace MatrixSpooll.Usage

open Library

variable {Amount : Type}

/-- `ApiCall`, the columns a settlement reads or writes. -/
structure ApiCall (Amount : Type) where
  id : Nat
  callType : String
  model : String
  resolution : Option String
  durationSeconds : Option Int
  aspectRatio : Option String
  generateAudio : Option Bool
  status : String
  errorMessage : Option String
  outputPath : Option String
  startedAt : Nat
  finishedAt : Option Nat
  durationMs : Option Int
  costAmount : Amount
  currency : String
  provider : String
  usageTokens : Option Int
  inputTokens : Option Int
  outputTokens : Option Int
  imageInputTokens : Option Int
  imageOutputTokens : Option Int
  textInputTokens : Option Int
  textOutputTokens : Option Int
  deriving DecidableEq

structure SettlementInput (Amount : Type) where
  costAmount : Option Amount := none
  currency : Option String := none
  serviceTier : String := "default"
  generateAudio : Option Bool := none
  billedDurationSeconds : Option Int := none
  usageTokens : Option Int := none
  inputTokens : Option Int := none
  outputTokens : Option Int := none
  quality : Option String := none
  imageInputTokens : Option Int := none
  imageOutputTokens : Option Int := none
  textInputTokens : Option Int := none
  textOutputTokens : Option Int := none
  deriving DecidableEq

structure SettledCall (Amount : Type) where
  durationMs : Int
  effectiveDurationSeconds : Option Int
  effectiveGenerateAudio : Option Bool
  inputTokens : Option Int
  outputTokens : Option Int
  costAmount : Amount
  currency : String
  deriving DecidableEq

structure PricingParams where
  callType : String
  model : String
  resolution : Option String
  aspectRatio : Option String
  durationSeconds : Option Int
  generateAudio : Bool
  usageTokens : Option Int
  serviceTier : String
  inputTokens : Option Int
  outputTokens : Option Int
  quality : Option String
  imageInputTokens : Option Int
  imageOutputTokens : Option Int
  textInputTokens : Option Int
  textOutputTokens : Option Int
  deriving DecidableEq

structure CustomPrice (Amount : Type) where
  priceInput : Option Amount
  priceOutput : Option Amount
  currency : Option String
  priceUnit : Option String
  deriving DecidableEq

/-- What a settlement takes from outside the repository. -/
structure Pricing (Amount : Type) where
  zero : Amount
  elapsedMs : Nat → Nat → Int
  calculateCost : String → PricingParams → CustomPrice Amount → Amount × String

def maxBilledDurationSeconds : Int := 86400

/-- The billed duration where it is plausible, else the requested one. -/
def effectiveDuration (billed requested : Option Int) : Option Int :=
  match billed with
  | some seconds =>
    if 0 < seconds && seconds ≤ maxBilledDurationSeconds then some seconds
    else requested
  | none => requested

def SettlementInput.hasImageTokens (settlement : SettlementInput Amount) : Bool :=
  settlement.imageInputTokens.isSome || settlement.imageOutputTokens.isSome ||
    settlement.textInputTokens.isSome || settlement.textOutputTokens.isSome

def settle (pricing : Pricing Amount) (row : ApiCall Amount)
    (finishedAt : Nat) (settlement : SettlementInput Amount)
    (autoCalc : Bool) (baseCurrency : String)
    (customPrice : CustomPrice Amount) : SettledCall Amount :=
  let generateAudio := settlement.generateAudio.orElse (fun _ => row.generateAudio)
  let duration := effectiveDuration settlement.billedDurationSeconds row.durationSeconds
  let inputTokens :=
    if settlement.hasImageTokens then
      some (settlement.imageInputTokens.getD 0 + settlement.textInputTokens.getD 0)
    else settlement.inputTokens
  let outputTokens :=
    if settlement.hasImageTokens then
      some (settlement.imageOutputTokens.getD 0 + settlement.textOutputTokens.getD 0)
    else settlement.outputTokens
  let cost : Amount × String :=
    match settlement.costAmount with
    | some amount => (amount, truthyOr settlement.currency baseCurrency)
    | none =>
      if autoCalc then
        pricing.calculateCost (truthyOr (some row.provider) "gemini")
          { callType := row.callType
            model := row.model
            resolution := row.resolution
            aspectRatio := row.aspectRatio
            durationSeconds := duration
            generateAudio := generateAudio.getD false
            usageTokens := settlement.usageTokens
            serviceTier := settlement.serviceTier
            inputTokens := inputTokens
            outputTokens := outputTokens
            quality := settlement.quality
            imageInputTokens := settlement.imageInputTokens
            imageOutputTokens := settlement.imageOutputTokens
            textInputTokens := settlement.textInputTokens
            textOutputTokens := settlement.textOutputTokens }
          customPrice
      else (pricing.zero, baseCurrency)
  { durationMs := pricing.elapsedMs row.startedAt finishedAt
    effectiveDurationSeconds := duration
    effectiveGenerateAudio := generateAudio
    inputTokens := inputTokens
    outputTokens := outputTokens
    costAmount := cost.1
    currency := cost.2 }

/-- What `start_call` is called with. -/
structure StartRequest where
  callType : String
  model : String
  resolution : Option String := none
  durationSeconds : Option Int := none
  aspectRatio : Option String := none
  generateAudio : Bool := true
  provider : String := "gemini"
  deriving DecidableEq

/-- The row of a new call, with the defaults of the table. -/
def startedCall (pricing : Pricing Amount) (id now : Nat)
    (request : StartRequest) : ApiCall Amount :=
  { id := id
    callType := request.callType
    model := request.model
    resolution := request.resolution
    durationSeconds := request.durationSeconds
    aspectRatio := request.aspectRatio
    generateAudio := some request.generateAudio
    status := "pending"
    errorMessage := none
    outputPath := none
    startedAt := now
    finishedAt := none
    durationMs := none
    costAmount := pricing.zero
    currency := "USD"
    provider := request.provider
    usageTokens := none
    inputTokens := none
    outputTokens := none
    imageInputTokens := none
    imageOutputTokens := none
    textInputTokens := none
    textOutputTokens := none }

/-- Which method settles the call, with what only that method writes. -/
inductive SettlePath where
  | finishCall (outputPath errorMessage : Option String)
  | finalizePendingByCallId
  deriving DecidableEq

/-- A settling call between its read and its update. -/
structure Settling (Amount : Type) where
  path : SettlePath
  callId : Nat
  status : String
  settlement : SettlementInput Amount
  finishedAt : Nat
  settled : SettledCall Amount
  deriving DecidableEq

variable (path : SettlePath) (settling : Settling Amount) (row : ApiCall Amount)

/-- Whether the cost is computed: `finalize_pending_by_call_id` also looks at
the status it read. -/
def autoCalc (status : String) (row : ApiCall Amount) : Bool :=
  match path with
  | .finishCall _ _ => status = "success"
  | .finalizePendingByCallId => (status = "success") && (row.status = "pending")

def baseCurrency (settlement : SettlementInput Amount) (row : ApiCall Amount) : String :=
  match path with
  | .finishCall _ _ => truthyOr (some row.currency) "USD"
  | .finalizePendingByCallId => truthyOr settlement.currency "USD"

/-- The read of a settling call. -/
def Settling.ofRow (pricing : Pricing Amount) (row : ApiCall Amount)
    (path : SettlePath) (status : String) (settlement : SettlementInput Amount) (finishedAt : Nat)
    (customPrice : CustomPrice Amount) : Settling Amount :=
  { path := path
    callId := row.id
    status := status
    settlement := settlement
    finishedAt := finishedAt
    settled := settle pricing row finishedAt settlement
      (autoCalc path status row) (baseCurrency path settlement row)
      customPrice }

/-- Which rows the update of a settling call matches: only
`finalize_pending_by_call_id` asks for a pending one. -/
def Settling.matchesRow : Bool :=
  match settling.path with
  | .finishCall _ _ => row.id = settling.callId
  | .finalizePendingByCallId => (row.id = settling.callId) && (row.status = "pending")

/-- The values of the update. -/
def Settling.assign : ApiCall Amount :=
  let shared := { row with
    status := settling.status
    finishedAt := some settling.finishedAt
    durationMs := some settling.settled.durationMs
    durationSeconds := settling.settled.effectiveDurationSeconds
    generateAudio := settling.settled.effectiveGenerateAudio
    costAmount := settling.settled.costAmount
    currency := settling.settled.currency
    usageTokens := settling.settlement.usageTokens }
  match settling.path with
  | .finishCall outputPath errorMessage =>
    { shared with
      inputTokens := settling.settled.inputTokens
      outputTokens := settling.settled.outputTokens
      imageInputTokens := settling.settlement.imageInputTokens
      imageOutputTokens := settling.settlement.imageOutputTokens
      textInputTokens := settling.settlement.textInputTokens
      textOutputTokens := settling.settlement.textOutputTokens
      outputPath := outputPath
      errorMessage :=
        if isTruthy errorMessage then
          errorMessage.map (fun text => .ofList (text.toList.take 500))
        else none }
  | .finalizePendingByCallId => shared

theorem Settling.id_assign : (settling.assign row).id = row.id := by
  unfold assign
  cases settling.path with
  | finishCall outputPath errorMessage | finalizePendingByCallId => rfl

abbrev CallTable (Amount : Type) := KeyedTable (ApiCall Amount) Nat ApiCall.id

def Settling.update (settling : Settling Amount) (calls : CallTable Amount) :
    CallTable Amount × Nat :=
  (KeyedTable.update calls settling.matchesRow settling.assign settling.id_assign,
    calls.rowcount settling.matchesRow)

end MatrixSpooll.Usage
