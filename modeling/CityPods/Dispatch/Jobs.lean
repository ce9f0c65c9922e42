import CityPods.Dispatch.Reservation

/-! # Jobs and call results

The job row of the coordinator, the result an executor reports for a leased
job, and how a result is classed. Identifiers are strings and an absent column
is `none`.
-/

namespace CityPods.Dispatch

open Foundation

inductive JobState
  | queued
  | leased
  | unknownAttempt
  | completed
  | retryable
  | failed
  | purgePending
  deriving DecidableEq

/-- The parsed policy of a job. What only the catalog's eligibility rules read is
kept as text. -/
structure JobPolicy where
  allowedModels : Option (List String) := none
  backupModels : Option (List String) := none
  backupAfterAttempts : Option ℤ := none
  requirements : String := ""
  deriving DecidableEq

/-- A row of the `jobs` table. -/
structure JobRow where
  id : String
  idempotencyKey : String
  requestDigest : String
  providerIdempotencyKey : Option String := none
  state : JobState := .queued
  priority : Nat := 1
  purpose : String := ""
  policy : JobPolicy := {}
  promptFamily : String := ""
  inputTokenEstimate : ℚ := 0
  maxOutputTokenEstimate : ℚ := 0
  payloadKey : String := ""
  resultKey : Option String := none
  terminalReason : Option String := none
  terminalCatalogDigest : Option String := none
  leaseToken : Option String := none
  leaseRouteId : Option String := none
  leaseExpiresAt : Option ℚ := none
  bundleId : Option String := none
  attempts : Nat := 0
  schemaRetryCount : Nat := 0
  transientRetryCount : Nat := 0
  tokenReservation : ℚ := 0
  reservationRpmWindowStart : ℚ := 0
  reservationRpdDayKey : String := ""
  reservationTpmWindowStart : ℚ := 0
  queueModels : Option (List String) := none
  sizeExcludedRoutes : Option (List String) := none
  quotaExcludedRoutes : Option (List String) := none
  responseTimeoutRoutes : Option (Dict String Nat) := none
  createdAt : ℚ := 0
  updatedAt : ℚ := 0
  deriving DecidableEq

def JobRow.sized (job : JobRow) : SizedJob := ⟨job.inputTokenEstimate, job.maxOutputTokenEstimate⟩

inductive Outcome
  | success
  | deferredLate
  | retryableError
  | terminalError
  | unrecognized (name : String)
  deriving DecidableEq

/-- What an executor reports for one job of its bundle. -/
structure CallResult where
  jobId : String
  leaseToken : String
  outcome : Outcome
  providerStatusCode : Option Nat := none
  failureClass : Option FailureClass := none
  scope : Option String := none
  observedInputTokens : Option ℚ := none
  observedOutputTokens : Option ℚ := none
  tokenReservation : Option ℚ := none
  actualStartAt : Option ℚ := none
  retryAfterSeconds : Option ℚ := none
  resultKey : Option String := none
  deriving DecidableEq

def CallResult.observedTotal (result : CallResult) : Option ℚ :=
  match result.observedInputTokens, result.observedOutputTokens with
  | some input, some output => some (input + output)
  | _, _ => none

def CallResult.countedTokens (result : CallResult) (route : CatalogRoute) : Option ℚ :=
  match result.observedInputTokens, result.observedOutputTokens with
  | some input, some output => some (if isGemini route then input else input + output)
  | _, _ => none

/-- The reservation a settlement releases: the one stored at claim time, where
there is one. -/
def settledReservation (job : JobRow) (result : CallResult) : ℚ :=
  if 0 < job.tokenReservation then job.tokenReservation
  else result.tokenReservation.getD (result.observedTotal.getD 0)

/-- Failures the provider or the gateway caused, and replies of no use. -/
def isUpstreamClass (result : CallResult) : Bool :=
  result.failureClass ∈ ([some .upstreamCapacity, some .gatewayLimit, some .structuredOutputEmpty,
    some .structuredOutputInvalid] : List (Option FailureClass))

def isFinal5xx (result : CallResult) : Bool :=
  result.outcome = .retryableError ∧ (∃ status ∈ result.providerStatusCode,
    500 ≤ status ∧ status ≤ 599) ∧ ¬ isUpstreamClass result

/-- A 400 is reported as retryable only when the provider blames its own upstream. -/
def isUpstreamCapacityFailure (result : CallResult) : Bool :=
  result.outcome = .retryableError ∧ result.providerStatusCode = some 400

def isDeadlineAbort (result : CallResult) : Bool :=
  result.failureClass = some .providerResponseTimeout ∧ result.providerStatusCode = none

def isGatewayTimeout (result : CallResult) : Bool :=
  result.failureClass = some .serverError ∧
    (result.providerStatusCode = some 504 ∨ result.providerStatusCode = some 524)

def isResponseTimeout (job : JobRow) (result : CallResult) : Bool :=
  result.outcome = .retryableError ∧ (isDeadlineAbort result ∨ isGatewayTimeout result) ∧
    result.actualStartAt.isSome ∧ job.leaseRouteId.isSome

def isTransientRouteFailure (job : JobRow) (result : CallResult) : Bool :=
  isFinal5xx result || isUpstreamCapacityFailure result || isResponseTimeout job result

def isPromptCap (result : CallResult) : Bool := result.failureClass = some .freePromptCap

def isSizeRejection (result : CallResult) : Bool := result.failureClass = some .routeInputLimit

def isRouteUnavailable (result : CallResult) : Bool := result.failureClass = some .routeUnavailable

def isOutputBudgetExhausted (result : CallResult) : Bool :=
  result.failureClass = some .outputBudgetExhausted

def nonConsumingFailureClasses : List FailureClass :=
  [.upstreamCapacity, .gatewayLimit, .serverError, .routeInputLimit, .paymentRequired,
    .requestDefect, .routeUnavailable]

/-- Whether the call used none of the route's quota. -/
def nonConsuming (job : JobRow) (result : CallResult) : Bool :=
  ¬ isResponseTimeout job result ∧ (isPromptCap result ∨
    ∃ failureClass ∈ result.failureClass, failureClass ∈ nonConsumingFailureClasses)

/-- Whether a settlement gives the claim's charge back. -/
def refunded (job : JobRow) (result : CallResult) : Bool :=
  result.outcome ≠ .success ∧ nonConsuming job result

end CityPods.Dispatch
