import CityPods.Dispatch.Jobs

/-! # Settlement of a route's ledger

What a reported result does to the ledger of the route it ran on. A success is
folded with the other successes of its batch and written later; any other
result is written at once.
-/

namespace CityPods.Dispatch

open Foundation

/-! ## Backoff -/

/-- Retry budgets and cooldowns, with the defaults of the worker's configuration. -/
structure Config where
  max5xxRetries : Nat := 1
  maxUpstreamCapacityRetries : Nat := 8
  maxSingleModelOutputBudgetRetries : Nat := 1
  max5xxBackoffMs : ℚ := 300000
  routeUnavailableBlockMs : ℚ := 21600000
  upstreamCapacityCooldownSeconds : ℚ := 15
  upstreamCapacityMaxCooldownSeconds : ℚ := 300
  saturatedCooldownSeconds : ℚ := 60
  saturatedMaxCooldownSeconds : ℚ := 86400

/-- The random numbers, between zero and one, that a settlement draws. -/
structure Draws where
  transient : ℚ := 0
  upstream : ℚ := 0

/-- `Math.round`: the nearest integer, halves upward. -/
def roundHalfUp (value : ℚ) : ℚ := ⌊value + 1 / 2⌋

def doubled : Nat → ℚ → ℚ
  | 0, value => value
  | steps + 1, value => doubled steps (2 * value)

def transientBlockedUntil (config : Config) (retryCount : Nat) (now draw : ℚ) : ℚ :=
  now + roundHalfUp (min (doubled (retryCount - 1) 60000) config.max5xxBackoffMs *
    (1 + draw / 2))

/-- A route that keeps reporting a full pool is probed less and less. -/
def upstreamCapacityBlockedUntil (config : Config) (streak : Nat) (now : ℚ) (saturated : Bool)
    (draw : ℚ) : ℚ :=
  let baseCooldown :=
    if saturated then config.saturatedCooldownSeconds else config.upstreamCapacityCooldownSeconds
  let maxCooldown :=
    if saturated then config.saturatedMaxCooldownSeconds
    else config.upstreamCapacityMaxCooldownSeconds
  let expCooldown := min maxCooldown (doubled (min streak 40) (baseCooldown / 2))
  now + min (maxCooldown * 1000) ⌈expCooldown * 1000 * (1 + draw / 2)⌉

def retryAfterMs (result : CallResult) : Option ℚ :=
  result.retryAfterSeconds.bind fun seconds => if 0 < seconds then some (seconds * 1000) else none

def googleAvailabilityBlockedUntil (streak : Nat) (now : ℚ) (result : CallResult) (draw : ℚ) : ℚ :=
  let delay := min 5000 (doubled (min (streak - 1) 2) 1000) * (4 / 5 + draw * (2 / 5))
  now + ⌈(retryAfterMs result).getD (min 5000 delay)⌉

/-- The first day of the month after a day, both counted from the epoch. -/
def nextMonthStart (day : ℤ) : ℤ :=
  let shifted := day + 719468
  let era := shifted / 146097
  let dayOfEra := shifted % 146097
  let yearOfEra :=
    (dayOfEra - dayOfEra / 1460 + dayOfEra / 36524 - dayOfEra / 146096) / 365
  let dayOfYear := dayOfEra - (365 * yearOfEra + yearOfEra / 4 - yearOfEra / 100)
  let month := (5 * dayOfYear + 2) / 153
  let start := era * 146097 + 365 * yearOfEra + yearOfEra / 4 - yearOfEra / 100 - 719468
  -- The year is counted from March, so that a leap day is its last day.
  if month = 11 then
    let next := yearOfEra + 1
    era * 146097 + 365 * next + next / 4 - next / 100 + next / 400 - 719468
  else start + (153 * (month + 1) + 2) / 5

/-- A 402 blocks the route for a day, then until a Monday, then until a month's
end, each at least a day beyond the rung before. -/
def paymentRequiredBackoffUntil (streak : ℚ) (now : ℚ) : ℚ :=
  let day := ⌊now / msPerDay⌋
  let weekday := (day + 4) % 7
  let untilMonday := if (8 - weekday) % 7 = 0 then 7 else (8 - weekday) % 7
  let first : ℚ := (day + 1 : ℤ) * msPerDay
  let monday : ℚ := (day + if 1 < untilMonday then untilMonday else untilMonday + 7 : ℤ) * msPerDay
  let month : ℚ := (nextMonthStart day : ℤ) * msPerDay
  let second := max monday (first + msPerDay)
  if streak ≤ 1 then first
  else if streak ≤ 2 then second
  else max month (second + msPerDay)

/-! ## The rolling input window -/

/-- Google counts a request in its minute once it has arrived, also when the call
then fails with a 500 or 503. -/
def recordsInput (route : CatalogRoute) (result : CallResult) (refund : Bool) : Bool :=
  (∃ startedAt ∈ result.actualStartAt, 0 < startedAt) ∧
    (¬ refund ∨ isGemini route ∧
      (result.providerStatusCode = some 500 ∨ result.providerStatusCode = some 503))

def recordedInput (job : JobRow) (result : CallResult) : ℚ :=
  match result.observedInputTokens with
  | some observed => if 0 ≤ observed then observed else claimed
  | none => claimed
where
  claimed : ℚ :=
    if job.tokenReservation = 0 then result.tokenReservation.getD 0 else job.tokenReservation

/-- Replace a lease's pending entry by what its call used. -/
def settleInputWindow (route : CatalogRoute) (row : RouteLedger) (job : JobRow)
    (result : CallResult) (now : ℚ) (refund : Bool) : List InputEntry :=
  let pending := (Dispatch.inputWindow row).filter fun entry =>
    decide (entry.leaseToken ≠ job.leaseToken)
  let recorded := recordedInput job result
  let entries :=
    if recordsInput route result refund ∧ 0 < recorded then
      pending ++ [{ atMs := result.actualStartAt.getD now, tokens := recorded }]
    else pending
  entries.filter fun entry => decide (now - tpmWindowSpanMs route < entry.atMs)

/-! ## Results other than success -/

/-- What a reply that was served and measured leaves over from its reservation. -/
def servedDelta (route : CatalogRoute) (job : JobRow) (result : CallResult) : ℚ :=
  if 0 < limitOf route.tpm then
    match result.countedTokens route with
    | some counted => settledReservation job result - counted
    | none => 0
  else 0

/-- Release the reservation; a measured reply is settled to what it used. -/
def releaseFailure (route : CatalogRoute) (job : JobRow) (result : CallResult) (now : ℚ)
    (row : RouteLedger) : RouteLedger :=
  let reservation := settledReservation job result
  let refund := nonConsuming job result
  let settledUsage := if refund then 0 else result.observedTotal.getD reservation
  let tpdRelease : ℚ :=
    if refund then reservation
    else
      match result.observedTotal with
      | some total => reservation - total
      | none => 0
  { row with
    provisionalReservation := max 0 (row.provisionalReservation - reservation)
    settledUsage := row.settledUsage + settledUsage
    tpdUsed := max 0 (row.tpdUsed - tpdRelease)
    fullTokenBudget :=
      row.fullTokenBudget + if refund then 0 else servedDelta route job result
    inputWindow :=
      if isGemini route then settleInputWindow route row job result now refund
      else row.inputWindow }

/-- Give a claim's charge back. A route with a minute quota checks that the
window counted in is still the route's; a route without one does not. -/
def refundClaim (route : CatalogRoute) (job : JobRow) (result : CallResult)
    (row : RouteLedger) : RouteLedger :=
  let reservation := settledReservation job result
  if 0 < limitOf route.tpm then
    { row with
      rpmCount :=
        if row.rpmWindowStart = job.reservationRpmWindowStart then max 0 (row.rpmCount - 1)
        else row.rpmCount
      rpdCount :=
        if row.rpdDayKey = job.reservationRpdDayKey then max 0 (row.rpdCount - 1)
        else row.rpdCount
      tpmReserved :=
        if row.tpmWindowStart = job.reservationTpmWindowStart then
          max 0 (row.tpmReserved - reservation)
        else row.tpmReserved
      fullTokenBudget := row.fullTokenBudget + reservation }
  else
    { row with
      rpmCount := max 0 (row.rpmCount - 1)
      rpdCount := max 0 (row.rpdCount - 1) }

def statusOf (result : CallResult) : Option ℚ := result.providerStatusCode.map fun status => status

def blockRoute (blockedUntil : ℚ) (row : RouteLedger) : RouteLedger :=
  { row with blockedUntil := some (max (row.blockedUntil.getD 0) blockedUntil) }

/-- Stand a route down whose model is retired or whose credential is invalid. -/
def blockUnavailable (config : Config) (result : CallResult) (now : ℚ) (row : RouteLedger) :
    RouteLedger :=
  { blockRoute (now + config.routeUnavailableBlockMs) row with
    lastProviderStatus := statusOf result
    lastFailureClass := result.failureClass }

/-- A rejected size bounds what the route is offered next. -/
def capPrompt (job : JobRow) (result : CallResult) (row : RouteLedger) : RouteLedger :=
  let cap := max 1 (job.inputTokenEstimate - 1)
  { row with
    promptCapEstimate :=
      if 0 < row.promptCapEstimate then min row.promptCapEstimate cap else cap
    lastProviderStatus := statusOf result
    lastFailureClass := result.failureClass }

def rejectInput (rejectedInput : ℚ) (result : CallResult) (now : ℚ) (row : RouteLedger) :
    RouteLedger :=
  { row with
    lastProviderStatus := statusOf result
    lastFailureClass := result.failureClass
    inputRejectedMin :=
      if 0 < row.inputRejectedMin ∧ now - row.inputRejectedAt ≤ learnedCeilingTtlMs then
        min row.inputRejectedMin rejectedInput
      else rejectedInput
    inputRejectedAt := now }

def coolUpstream (config : Config) (route : CatalogRoute) (result : CallResult) (now draw : ℚ)
    (row : RouteLedger) : RouteLedger :=
  let saturated := decide (result.failureClass = some .upstreamCapacity)
  let alreadyCooling := saturated ∧ now < row.blockedUntil.getD 0
  let streak := row.upstreamCapacityStreak + if alreadyCooling then 0 else 1
  let googleAvailability := isGemini route ∧
    (result.providerStatusCode = some 500 ∨ result.providerStatusCode = some 503)
  let nextBlock :=
    if alreadyCooling then
      if googleAvailability then ((retryAfterMs result).map fun wait => now + wait).getD 0 else 0
    else if googleAvailability then
      googleAvailabilityBlockedUntil ⌊streak⌋.toNat now result draw
    else upstreamCapacityBlockedUntil config ⌊streak⌋.toNat now saturated draw
  { blockRoute nextBlock row with
    upstreamCapacityStreak := streak
    lastProviderStatus := statusOf result }

/-- Whether a result stands down every route of the account. -/
def isAccountScope (result : CallResult) : Bool :=
  result.scope = some "account" ∨ result.providerStatusCode = some 401 ∨
    result.providerStatusCode = some 403

def isPaymentRequiredResult (result : CallResult) : Bool :=
  result.providerStatusCode = some 402 ∨ result.failureClass = some .paymentRequired

def requirePayment (result : CallResult) (now : ℚ) (row : RouteLedger) : RouteLedger :=
  { row with
    paymentRequiredStreak := row.paymentRequiredStreak + 1
    blockedUntil := some (paymentRequiredBackoffUntil (row.paymentRequiredStreak + 1) now)
    lastProviderStatus := some ((statusOf result).getD 429) }

/-- How many times this job has now timed out on its route; two settle it. -/
def nextRouteTimeoutCount (job : JobRow) : Nat :=
  min 2 (((job.responseTimeoutRoutes.getD []).get? (job.leaseRouteId.getD "")).getD 0 + 1)

def blockTransient (config : Config) (job : JobRow) (result : CallResult) (now draw : ℚ)
    (row : RouteLedger) : RouteLedger :=
  let retryCount :=
    if isResponseTimeout job result then nextRouteTimeoutCount job
    else job.transientRetryCount + 1
  { blockRoute (transientBlockedUntil config retryCount now draw) row with
    lastProviderStatus := statusOf result }

/-- The state a result that is no success leaves the route's backoff in.
`rejectedInput` is the job's input in the tokens of the route. -/
def backOff (config : Config) (route : CatalogRoute) (rejectedInput : ℚ) (job : JobRow)
    (result : CallResult) (draws : Draws) (now : ℚ) (row : RouteLedger) : RouteLedger :=
  if isPaymentRequiredResult result then requirePayment result now row
  else if isRouteUnavailable result then blockUnavailable config result now row
  else if isPromptCap result then capPrompt job result row
  else if isSizeRejection result then rejectInput rejectedInput result now row
  else if isTransientRouteFailure job result ∧ ¬ isUpstreamClass result then
    blockTransient config job result now draws.transient row
  else if isUpstreamClass result then coolUpstream config route result now draws.upstream row
  else if result.providerStatusCode.isSome then { row with lastProviderStatus := statusOf result }
  else row

def settleFailure (config : Config) (route : CatalogRoute) (rejectedInput : ℚ) (job : JobRow)
    (result : CallResult) (draws : Draws) (now : ℚ) (row : RouteLedger) : RouteLedger :=
  let released := releaseFailure route job result now row
  let refunded :=
    if nonConsuming job result then refundClaim route job result released else released
  backOff config route rejectedInput job result draws now refunded

/-! ## Successes -/

/-- The successes of a batch on one route that are not yet written. -/
structure PendingSuccess where
  reservation : ℚ := 0
  settledUsage : ℚ := 0
  budgetDelta : ℚ := 0
  windowDeltas : Dict ℚ ℚ := []
  dailyDelta : ℚ := 0
  maxObservedInput : ℚ := 0
  inputSettlements : List (JobRow × CallResult) := []
  lastStatus : ℚ := 200

def addWindowDelta (deltas : Dict ℚ ℚ) (window delta : ℚ) : Dict ℚ ℚ :=
  deltas.set window ((deltas.get? window).getD 0 + delta)

/-- The token window takes part in a settlement only for a reservation it holds. -/
def settlesWindow (route : CatalogRoute) (job : JobRow) (result : CallResult) : Bool :=
  0 < limitOf route.tpm ∧ settledReservation job result ≤ limitOf route.tpm ∧
    servedDelta route job result ≠ 0

/-- The daily tokens a measured success leaves over. -/
def dailySurplus (job : JobRow) (result : CallResult) : ℚ :=
  match result.observedTotal with
  | some total => settledReservation job result - total
  | none => 0

/-- Add a success to the pending ones of its route. A success with a class of
its own that consumes nothing settles no usage. -/
def PendingSuccess.add (route : CatalogRoute) (pending : PendingSuccess) (job : JobRow)
    (result : CallResult) : PendingSuccess where
  reservation := pending.reservation + settledReservation job result
  settledUsage := pending.settledUsage +
    if nonConsuming job result then 0
    else result.observedTotal.getD (settledReservation job result)
  budgetDelta := pending.budgetDelta + servedDelta route job result
  windowDeltas :=
    if settlesWindow route job result then
      addWindowDelta pending.windowDeltas job.reservationTpmWindowStart
        (servedDelta route job result)
    else pending.windowDeltas
  dailyDelta := pending.dailyDelta + dailySurplus job result
  maxObservedInput := max pending.maxObservedInput (result.observedInputTokens.getD 0)
  inputSettlements :=
    if isGemini route then pending.inputSettlements ++ [(job, result)]
    else pending.inputSettlements
  lastStatus := (statusOf result).getD 200

def settleInputs (route : CatalogRoute) (now : ℚ) (row : RouteLedger) :
    List (JobRow × CallResult) → List InputEntry
  | [] => row.inputWindow
  | (job, result) :: later =>
      settleInputs route now
        { row with inputWindow := settleInputWindow route row job result now false } later

/-- Gemini's own minute refusal outlives a success that was already under way. -/
def keepsOwnTpm (route : CatalogRoute) (now : ℚ) (row : RouteLedger) : Bool :=
  isGemini route ∧ row.lastFailureClass = some .ownTpm ∧ ∃ blocked ∈ row.blockedUntil, now < blocked

/-- The high-water mark of accepted input only rises while it is fresh. -/
def raisesAccepted (pending : PendingSuccess) (now : ℚ) (row : RouteLedger) : Bool :=
  0 < pending.maxObservedInput ∧ (row.inputAcceptedMax < pending.maxObservedInput ∨
    learnedCeilingTtlMs / 2 < now - row.inputAcceptedAt)

/-- Write the pending successes of a route: release, settle to actual use, and
clear every backoff signal. -/
def flushSuccess (route : CatalogRoute) (pending : PendingSuccess) (now : ℚ) (row : RouteLedger) :
    RouteLedger :=
  { row with
    provisionalReservation := max 0 (row.provisionalReservation - pending.reservation)
    settledUsage := row.settledUsage + pending.settledUsage
    tpdUsed := max 0 (row.tpdUsed - pending.dailyDelta)
    tpmReserved :=
      max 0 (row.tpmReserved - (pending.windowDeltas.get? row.tpmWindowStart).getD 0)
    fullTokenBudget := row.fullTokenBudget + pending.budgetDelta
    throttleStreak := 0
    bufferSeconds := 0
    bufferUpdatedAt := 0
    paymentRequiredStreak := 0
    upstreamCapacityStreak := 0
    lastFailureClass := if keepsOwnTpm route now row then row.lastFailureClass else none
    blockedUntil := if keepsOwnTpm route now row then row.blockedUntil else none
    lastProviderStatus := some pending.lastStatus
    inputWindow :=
      if isGemini route then settleInputs route now row pending.inputSettlements
      else row.inputWindow
    inputAcceptedAt := if raisesAccepted pending now row then now else row.inputAcceptedAt
    inputAcceptedMax :=
      if raisesAccepted pending now row then pending.maxObservedInput else row.inputAcceptedMax }

/-! ## A batch, on one route -/

/-- What the results of a batch do to one route: a result of a call on the route,
or the failure of a sibling that stands down the whole account. -/
inductive RouteReport
  | own (rejectedInput : ℚ) (job : JobRow) (result : CallResult) (draws : Draws)
  | sibling (result : CallResult)

def addPending (route : CatalogRoute) (pending : Option PendingSuccess) (job : JobRow)
    (result : CallResult) : Option PendingSuccess :=
  some ((pending.getD {}).add route job result)

def flushPending (route : CatalogRoute) (now : ℚ) (row : RouteLedger) :
    Option PendingSuccess → RouteLedger
  | none => row
  | some pending => flushSuccess route pending now row

/-- The row of one route through a batch: a failure on the route writes the
pending successes first, and the last ones are written at the end. -/
def settleReports (config : Config) (route : CatalogRoute) (now : ℚ) :
    List RouteReport → Option PendingSuccess → RouteLedger → RouteLedger
  | [], pending, row => flushPending route now row pending
  | .own rejectedInput job result draws :: later, pending, row =>
      if result.outcome = .success then
        settleReports config route now later (addPending route pending job result) row
      else
        settleReports config route now later none
          (settleFailure config route rejectedInput job result draws now
            (flushPending route now row pending))
  | .sibling result :: later, pending, row =>
      settleReports config route now later pending (blockUnavailable config result now row)

def settleAlone (config : Config) (route : CatalogRoute) (rejectedInput : ℚ) (job : JobRow)
    (result : CallResult) (draws : Draws) (now : ℚ) (row : RouteLedger) : RouteLedger :=
  settleReports config route now [.own rejectedInput job result draws] none row

/-! ## The quota columns of a settled ledger -/

section

variable (config : Config) (route : CatalogRoute) (rejectedInput : ℚ) (job : JobRow)
  (result : CallResult) (draws : Draws) (now : ℚ) (row : RouteLedger)

@[simp] theorem backOff_quota :
    (backOff config route rejectedInput job result draws now row).quota = row.quota := by
  unfold backOff
  by_cases payment : isPaymentRequiredResult result
  · rw [if_pos payment]
    rfl
  rw [if_neg payment]
  by_cases unavailable : isRouteUnavailable result
  · rw [if_pos unavailable]
    rfl
  rw [if_neg unavailable]
  by_cases capped : isPromptCap result
  · rw [if_pos capped]
    rfl
  rw [if_neg capped]
  by_cases rejected : isSizeRejection result
  · rw [if_pos rejected]
    rfl
  rw [if_neg rejected]
  by_cases transient : isTransientRouteFailure job result ∧ ¬ isUpstreamClass result
  · rw [if_pos transient]
    rfl
  rw [if_neg transient]
  by_cases upstream : isUpstreamClass result
  · rw [if_pos upstream]
    rfl
  rw [if_neg upstream]
  by_cases answered : result.providerStatusCode.isSome
  · rw [if_pos answered]
    rfl
  · rw [if_neg answered]

theorem releaseFailure_quota :
    (releaseFailure route job result now row).quota =
      { row.quota with
        fullTokenBudget := row.fullTokenBudget +
          if nonConsuming job result then 0 else servedDelta route job result } := rfl

theorem refundClaim_quota (limited : 0 < limitOf route.tpm) :
    (refundClaim route job result row).quota =
      { row.quota with
        rpmCount :=
          if row.rpmWindowStart = job.reservationRpmWindowStart then max 0 (row.rpmCount - 1)
          else row.rpmCount
        rpdCount :=
          if row.rpdDayKey = job.reservationRpdDayKey then max 0 (row.rpdCount - 1)
          else row.rpdCount
        tpmReserved :=
          if row.tpmWindowStart = job.reservationTpmWindowStart then
            max 0 (row.tpmReserved - settledReservation job result)
          else row.tpmReserved
        fullTokenBudget := row.fullTokenBudget + settledReservation job result } := by
  unfold refundClaim
  rw [if_pos limited]
  rfl

theorem refundClaim_quota_unlimited (unlimited : ¬ 0 < limitOf route.tpm) :
    (refundClaim route job result row).quota =
      { row.quota with
        rpmCount := max 0 (row.rpmCount - 1)
        rpdCount := max 0 (row.rpdCount - 1) } := by
  unfold refundClaim
  rw [if_neg unlimited]
  rfl

theorem settleFailure_quota_consuming (consuming : nonConsuming job result = false) :
    (settleFailure config route rejectedInput job result draws now row).quota =
      { row.quota with
        fullTokenBudget := row.fullTokenBudget + servedDelta route job result } := by
  unfold settleFailure
  dsimp only
  rw [backOff_quota, consuming, if_neg Bool.false_ne_true, releaseFailure_quota, consuming,
    if_neg Bool.false_ne_true]

theorem settleFailure_quota_refunded (refund : nonConsuming job result = true) :
    (settleFailure config route rejectedInput job result draws now row).quota =
      (refundClaim route job result (releaseFailure route job result now row)).quota := by
  unfold settleFailure
  dsimp only
  rw [backOff_quota, if_pos refund]

/-! ### A result settled alone -/

theorem settleAlone_success (success : result.outcome = .success) :
    settleAlone config route rejectedInput job result draws now row =
      flushSuccess route (PendingSuccess.add route {} job result) now row := by
  unfold settleAlone settleReports
  rw [if_pos success]
  rfl

theorem settleAlone_failure (failed : result.outcome ≠ .success) :
    settleAlone config route rejectedInput job result draws now row =
      settleFailure config route rejectedInput job result draws now row := by
  unfold settleAlone settleReports
  rw [if_neg failed]
  rfl

/-- The tokens a settlement gives back to the bucket. -/
def settlementCredit : ℚ :=
  if refunded job result then settledReservation job result else servedDelta route job result

theorem refunded_iff : refunded job result = true ↔
    result.outcome ≠ .success ∧ nonConsuming job result = true := by
  unfold refunded
  simp

theorem settleAlone_bucket (limited : 0 < limitOf route.tpm) :
    (settleAlone config route rejectedInput job result draws now row).fullTokenBudget =
      row.fullTokenBudget + settlementCredit route job result := by
  unfold settlementCredit
  by_cases success : result.outcome = .success
  · have kept : ¬ refunded job result = true := fun refund =>
      ((refunded_iff job result).mp refund).1 success
    rw [settleAlone_success config route rejectedInput job result draws now row success,
      if_neg kept]
    show row.fullTokenBudget + (0 + servedDelta route job result) = _
    rw [zero_add]
  rw [settleAlone_failure config route rejectedInput job result draws now row success]
  cases refund : nonConsuming job result with
  | false =>
      have kept : ¬ refunded job result = true := fun given => by
        rw [((refunded_iff job result).mp given).2] at refund
        cases refund
      rw [if_neg kept]
      exact congrArg QuotaColumns.fullTokenBudget (settleFailure_quota_consuming config route
        rejectedInput job result draws now row refund)
  | true =>
      rw [if_pos ((refunded_iff job result).mpr ⟨success, refund⟩)]
      have settled := settleFailure_quota_refunded config route rejectedInput job result draws now
        row refund
      rw [refundClaim_quota route job result _ limited] at settled
      have released := congrArg QuotaColumns.fullTokenBudget
        (releaseFailure_quota route job result now row)
      rw [refund, if_pos rfl] at released
      refine (congrArg QuotaColumns.fullTokenBudget settled).trans ?_
      show (releaseFailure route job result now row).fullTokenBudget + _ = _
      rw [show (releaseFailure route job result now row).fullTokenBudget = _ from released,
        add_zero]

/-- A request is given back in the windows that are still the route's, and no
window changes. -/
theorem settleAlone_requests (limited : 0 < limitOf route.tpm) :
    let settled := settleAlone config route rejectedInput job result draws now row
    settled.rpmWindowStart = row.rpmWindowStart ∧ settled.rpdDayKey = row.rpdDayKey ∧
      settled.tokenBudgetUpdatedAt = row.tokenBudgetUpdatedAt ∧
      settled.rpmCount =
        (if refunded job result ∧ row.rpmWindowStart = job.reservationRpmWindowStart then
          max 0 (row.rpmCount - 1)
        else row.rpmCount) ∧
      settled.rpdCount =
        if refunded job result ∧ row.rpdDayKey = job.reservationRpdDayKey then
          max 0 (row.rpdCount - 1)
        else row.rpdCount := by
  intro settled
  by_cases success : result.outcome = .success
  · have flushed : settled = flushSuccess route (PendingSuccess.add route {} job result) now
        row := settleAlone_success config route rejectedInput job result draws now row success
    have kept : ¬ refunded job result = true := fun refund =>
      ((refunded_iff job result).mp refund).1 success
    rw [if_neg fun both => kept both.1, if_neg fun both => kept both.1, flushed]
    exact ⟨rfl, rfl, rfl, rfl, rfl⟩
  have failed : settled = settleFailure config route rejectedInput job result draws now row :=
    settleAlone_failure config route rejectedInput job result draws now row success
  cases refund : nonConsuming job result with
  | false =>
      have columns := settleFailure_quota_consuming config route rejectedInput job result draws now
        row refund
      have kept : ¬ refunded job result = true := fun given => by
        rw [((refunded_iff job result).mp given).2] at refund
        cases refund
      rw [if_neg fun both => kept both.1, if_neg fun both => kept both.1, failed]
      exact ⟨congrArg QuotaColumns.rpmWindowStart columns,
        congrArg QuotaColumns.rpdDayKey columns,
        congrArg QuotaColumns.tokenBudgetUpdatedAt columns,
        congrArg QuotaColumns.rpmCount columns, congrArg QuotaColumns.rpdCount columns⟩
  | true =>
      have columns := settleFailure_quota_refunded config route rejectedInput job result draws now
        row refund
      rw [refundClaim_quota route job result _ limited, releaseFailure_quota] at columns
      have given := (refunded_iff job result).mpr ⟨success, refund⟩
      simp only [given, true_and]
      rw [failed]
      exact ⟨congrArg QuotaColumns.rpmWindowStart columns,
        congrArg QuotaColumns.rpdDayKey columns,
        congrArg QuotaColumns.tokenBudgetUpdatedAt columns,
        congrArg QuotaColumns.rpmCount columns, congrArg QuotaColumns.rpdCount columns⟩

end

end CityPods.Dispatch
