import CityPods.Dispatch.Completion

/-! # Retries and probes

What the coordinator does between a claim and its completion: it authorizes or
declines a retry after a 429, and charges calls made outside the queue to the
ledger of their route.
-/

namespace CityPods.Dispatch

open Foundation

structure RetryLimits where
  max429Retries : Nat := 1
  max429BackoffMs : ℚ := 60000
  maxRouteBufferSeconds : ℚ := 120

/-- The full catalog, and the recovery observed on the routes whose own retry advice
is not trusted. -/
structure RetryCatalog where
  routes : Dict String CatalogRoute
  observedRecoverySeconds : String → Option ℚ

/-- What an executor reports of a 429. -/
structure RetryRequest where
  jobId : String
  leaseToken : String
  failureClass : FailureClass := .unknown429
  retryAfterSeconds : Option ℚ := none
  quotaLimit : ℚ := 0
  quotaUsed : Option ℚ := none

section

variable (calendar : Calendar) (config : Config) (retryLimits : RetryLimits)
  (catalog : RetryCatalog) (now draw : ℚ)

def RetryCatalog.route (routeId : String) : CatalogRoute :=
  (catalog.routes.get? routeId).getD { provider := "" }

def positiveSeconds (seconds : Option ℚ) : Option ℚ := seconds.filter fun given => decide (0 < given)

def refused (failureClass : FailureClass) (row : RouteLedger) : RouteLedger :=
  { row with lastProviderStatus := some 429, lastFailureClass := some failureClass }

/-- The day's tokens are used up as far as the provider says. -/
def exhaustDailyTokens (route : CatalogRoute) (request : RetryRequest) (row : RouteLedger) :
    RouteLedger :=
  let remaining :=
    match request.quotaUsed with
    | some used => if 0 < request.quotaLimit ∧ 0 ≤ used then max 0 (request.quotaLimit - used) else 0
    | none => 0
  { blockRoute (now + max 0 (limitOf request.retryAfterSeconds) * 1000) row with
    tpdUsed := max 0 (limitOf route.tpd - remaining)
    tpdUpdatedAt := now }

/-- The day's requests are used up until the provider's midnight. -/
def exhaustDailyRequests (route : CatalogRoute) (row : RouteLedger) : RouteLedger :=
  let timeZone := routeResetTimezone route
  { blockRoute (nextZonedMidnightMs calendar timeZone now) row with
    rpdCount := limitOf route.rpd
    rpdDayKey := calendar.zonedDateKey timeZone now }

/-- The minute's tokens are used up for a whole window. -/
def exhaustMinute (route : CatalogRoute) (request : RetryRequest) (row : RouteLedger) :
    RouteLedger :=
  let blockedUntil :=
    match positiveSeconds request.retryAfterSeconds with
    | some seconds => now + ⌈seconds * 1000⌉ + 1000
    | none => now + tpmWindowSpanMs route
  { blockRoute blockedUntil row with
    fullTokenBudget := 0
    tokenBudgetUpdatedAt := now
    tpmReserved := limitOf route.tpm
    tpmWindowStart := now }

/-- A saturated provider pool is no sign of the route's own pacing. -/
def saturate (row : RouteLedger) : RouteLedger :=
  let streak := row.upstreamCapacityStreak + 1
  { blockRoute (upstreamCapacityBlockedUntil config ⌊streak⌋.toNat now true draw) row with
    upstreamCapacityStreak := streak
    throttleStreak := 0
    bufferSeconds := 0
    bufferUpdatedAt := 0 }

/-- The gateway's own limit, with the streak of the route that ran into it. -/
def limitGateway (streak : ℚ) (row : RouteLedger) : RouteLedger :=
  { blockRoute (upstreamCapacityBlockedUntil config ⌊streak⌋.toNat now false draw) row with
    upstreamCapacityStreak := streak }

def requirePaymentNow (row : RouteLedger) : RouteLedger :=
  { row with
    paymentRequiredStreak := row.paymentRequiredStreak + 1
    blockedUntil := some (paymentRequiredBackoffUntil (row.paymentRequiredStreak + 1) now) }

/-- The provider's advice, and at least the recovery observed where it is not trusted. -/
def retryAfterOf (routeId : String) (request : RetryRequest) : Option ℚ :=
  match positiveSeconds request.retryAfterSeconds,
      positiveSeconds (catalog.observedRecoverySeconds routeId) with
  | some advised, some observed => some (max advised observed)
  | some advised, none => some advised
  | none, observed => observed

/-- An unexplained refusal widens the route's buffer. -/
def throttle (retryAfter : Option ℚ) (row : RouteLedger) : RouteLedger :=
  let added :=
    match retryAfter with
    | some seconds => min retryLimits.maxRouteBufferSeconds seconds
    | none => retryLimits.max429BackoffMs / 1000
  let blockedUntil :=
    match retryAfter with
    | some seconds => now + ⌈seconds * 1000⌉
    | none => 0
  { blockRoute blockedUntil row with
    throttleStreak := row.throttleStreak + 1
    bufferSeconds :=
      min retryLimits.maxRouteBufferSeconds (effectiveBufferSeconds row now + added)
    bufferUpdatedAt := now }

/-- When a throttled call may try again. -/
def retryNotBefore (retryAfter : Option ℚ) (row : RouteLedger) : ℚ :=
  match retryAfter with
  | some seconds => now + ⌈seconds * 1000 + draw * min 1000 (seconds * 1000 / 10)⌉
  | none =>
      now + roundHalfUp (min retryLimits.max429BackoffMs ((row.throttleStreak + 1) * 1000) *
        (1 / 2 + draw))

def limitProvider (routeId : String) (streak : ℚ) (routes : Dict String RouteLedger) :
    Dict String RouteLedger :=
  let limited := fun row => refused .gatewayLimit (limitGateway config now draw streak row)
  let provider := (catalog.route routeId).provider
  if provider = "" then updateRoute routeId limited routes
  else
    (Dict.keys (catalog.routes.filter fun entry => decide (entry.2.provider = provider))).foldl
      (fun routes other => updateRoute other limited (ensureRoute now other none routes)) routes

def learnRefusal (routeId : String) (request : RetryRequest) (routes : Dict String RouteLedger) :
    Dict String RouteLedger :=
  let route := catalog.route routeId
  let update := fun edit => updateRoute routeId (fun row => refused request.failureClass (edit row)) routes
  match request.failureClass with
  | .ownTpd => update (exhaustDailyTokens now route request)
  | .ownRpd => update (exhaustDailyRequests calendar now route)
  | .ownTpm => update (exhaustMinute now route request)
  | .upstreamCapacity => update (saturate config now draw)
  | .gatewayLimit =>
      let streak := (routes.get? routeId).elim 0 RouteLedger.upstreamCapacityStreak + 1
      limitProvider config catalog now draw routeId streak routes
  | .paymentRequired => update (requirePaymentNow now)
  | .freePromptCap | .requestDefect => update id
  | _ => update (throttle retryLimits now (retryAfterOf catalog routeId request))

/-- The classes of refusal after which the call is not tried again in its bundle. -/
def declinedClasses : List FailureClass :=
  [.ownTpd, .ownRpd, .ownTpm, .upstreamCapacity, .gatewayLimit, .paymentRequired, .freePromptCap,
    .requestDefect]

/-- Whether a refusal is heard at all: a size refusal is the job's own, and a job that
has spent its retries only teaches the minute's quota. -/
def hearsRefusal (job : JobRow) (request : RetryRequest) : Bool :=
  request.failureClass ≠ .routeInputLimit ∧
    (job.attempts ≤ retryLimits.max429Retries ∨ request.failureClass = .ownTpm)

def leasedJobOf (request : RetryRequest) (state : Coordinator) : Option JobRow :=
  (state.tables.jobs.get? request.jobId).filter fun job =>
    decide (job.leaseToken = some request.leaseToken ∧ job.state = .leased)

def grantRetry (bundle : Bundle) (job : JobRow) (retryAt : ℚ) (state : Coordinator) :
    Coordinator × Option ℚ :=
  if min bundle.dispatchWindowEnd bundle.leaseExpiresAt ≤ retryAt then (state, none)
  else
    ({ state with tables := state.tables.writeRow { job with attempts := job.attempts + 1 } },
      some retryAt)

def decideRetry (bundle : Bundle) (job : JobRow) (routeId : String) (request : RetryRequest)
    (state : Coordinator) : Coordinator × Option ℚ :=
  let routes := ensureRoute now routeId none state.routes
  let learned :=
    { state with
      routes := learnRefusal calendar config retryLimits catalog now draw routeId request routes }
  if request.failureClass ∈ declinedClasses then (learned, none)
  else
    let ledger := getOrCreateRouteLedger state.routes routeId now none
    grantRetry bundle job
      (retryNotBefore retryLimits now draw (retryAfterOf catalog routeId request) ledger) learned

/-- Answer a 429: the time of an authorized retry, if any. -/
def authorizeRetry (request : RetryRequest) (state : Coordinator) : Coordinator × Option ℚ :=
  match leasedJobOf request state with
  | none => (state, none)
  | some job =>
      if hearsRefusal retryLimits job request then
        match job.bundleId.bind state.bundles.get?, job.leaseRouteId with
        | some bundle, some routeId =>
            decideRetry calendar config retryLimits catalog now draw bundle job routeId request state
        | _, _ => (state, none)
      else (state, none)

end

section

variable (calendar : Calendar) (route : CatalogRoute) (routeId : String) (now : ℚ)

/-- Charge calls of a few tokens to a route's request counters. -/
def reserveRouteRequests (requests : Nat) (state : Coordinator) : Coordinator :=
  let ledger := getOrCreateRouteLedger state.routes routeId now route.tpm
  let charged := (List.range requests).foldl
    (fun ledger _ => applyProvisionalReservation calendar route ledger 0 now none) ledger
  { state with routes := state.routes.set routeId charged }

/-- The admission of one context probe: its charge holds no reservation. What the
probe's own weekly budget allows is the caller's affair. -/
def admitContext (job : SizedJob) (state : Coordinator) : Option Coordinator :=
  let ledger := getOrCreateRouteLedger state.routes routeId now route.tpm
  match earliestSafeStart calendar route ledger job now now
      { inputRatio := some 1, contextProbe := true } with
  | .error _ => none
  | .ok start =>
      if now < start.notBeforeAt then none
      else
        let reservation :=
          job.inputTokenEstimate + if isGemini route then 0 else job.maxOutputTokenEstimate
        let charged := applyProvisionalReservation calendar route ledger reservation now none
        some { state with
          routes := state.routes.set routeId
            { charged with provisionalReservation := ledger.provisionalReservation } }

end

end CityPods.Dispatch
