import CityPods.Dispatch.Claims

/-! # Completion

What an executor's report of its bundle does: every result of a live lease moves
its job on and settles its route. The successes of a batch are folded by route
and written before the next other result of their route, or at the end.
-/

namespace CityPods.Dispatch

open Foundation

/-! ## The catalog -/

/-- The full catalog, paused routes included, and what it says of a job that is
about to be requeued. -/
structure CompletionCatalog where
  lanes : LaneCatalog
  routes : Dict String CatalogRoute
  modelForRouteId : String → Option String
  canonicalModelName : String → String
  inputRatio : Estimates → String → JobRow → ℚ
  calibrate : Estimates → JobRow → CallResult → Estimates
  quotaRoutesLeft : JobRow → Nat
  timeoutRoutesLeft : Estimates → Dict String RouteLedger → JobRow → Nat
  sizeRoutesLeft : Estimates → Dict String RouteLedger → JobRow → Nat
  sizedRoutes : JobRow → List String

/-- A result with the random numbers its settlement draws. -/
structure Report where
  result : CallResult
  draws : Draws := {}

section

variable (config : Config) (catalog : CompletionCatalog) (now : ℚ)

def CompletionCatalog.route (routeId : String) : CatalogRoute :=
  (catalog.routes.get? routeId).getD { provider := "" }

def CompletionCatalog.rejectedInput (estimates : Estimates) (routeId : String) (job : JobRow) : ℚ :=
  if (catalog.routes.get? routeId).isSome then
    scaledInputTokens job.inputTokenEstimate (catalog.inputRatio estimates routeId job)
  else job.inputTokenEstimate

/-! ## Exclusions -/

/-- A call that never reached a provider gives its attempt back. -/
def countedJob (job : JobRow) (result : CallResult) : JobRow :=
  if result.actualStartAt.isNone then { job with attempts := job.attempts - 1 } else job

def nextSizeExcludedRoutes (job : JobRow) (result : CallResult) : Option (List String) :=
  if isSizeRejection result then
    some ((job.sizeExcludedRoutes.getD [] ++ job.leaseRouteId.toList).eraseDups)
  else job.sizeExcludedRoutes

def startsWith (text start : String) : Bool := start.toList.isPrefixOf text.toList

/-- Google's own minute refusal of a job pinned to one Gemma model: it says nothing
of the job's size, and moves the job off the refusing project. -/
def isQuotaRejection (job : JobRow) (result : CallResult) : Bool :=
  let leasedRoute := job.leaseRouteId.bind catalog.routes.get?
  let leasedModel := job.leaseRouteId.bind catalog.modelForRouteId
  let declaredModels :=
    ((job.policy.allowedModels.getD []).map catalog.canonicalModelName).eraseDups
  (result.outcome = .retryableError ∨ result.outcome = .terminalError) ∧
    result.actualStartAt.isSome ∧ result.providerStatusCode = some 429 ∧
    result.failureClass = some .ownTpm ∧ leasedRoute.any isGemini ∧
    leasedModel.any (fun model => startsWith model "google/gemma-4-") ∧
    declaredModels = leasedModel.toList ∧ job.policy.backupModels.getD [] = []

def nextQuotaExcludedRoutes (job : JobRow) (result : CallResult) : Option (List String) :=
  if isQuotaRejection catalog job result then
    some ((job.quotaExcludedRoutes.getD [] ++ job.leaseRouteId.toList).eraseDups)
  else job.quotaExcludedRoutes

/-- The settled response deadlines of each route, no more than two. -/
def responseTimeoutCounts (job : JobRow) : Dict String Nat :=
  Dict.mapValues (min 2)
    ((job.responseTimeoutRoutes.getD []).filter fun entry => decide (0 < entry.2))

def nextTimeoutCounts (job : JobRow) (result : CallResult) : Dict String Nat :=
  if isResponseTimeout job result then
    (responseTimeoutCounts job).set (job.leaseRouteId.getD "") (nextRouteTimeoutCount job)
  else responseTimeoutCounts job

def nextResponseTimeoutRoutes (job : JobRow) (result : CallResult) : Option (Dict String Nat) :=
  if isResponseTimeout job result then some (nextTimeoutCounts job result)
  else job.responseTimeoutRoutes

def excludedJob (job : JobRow) (result : CallResult) : JobRow :=
  { job with
    sizeExcludedRoutes := nextSizeExcludedRoutes job result
    quotaExcludedRoutes := nextQuotaExcludedRoutes catalog job result
    responseTimeoutRoutes := nextResponseTimeoutRoutes job result }

/-! ## Retry budgets -/

/-- The attempts after which a job's backup models come into play; zero without any. -/
def backupAfterAttempts (job : JobRow) : Nat :=
  match job.policy.backupModels, job.policy.backupAfterAttempts with
  | some (_ :: _), some attempts => attempts.toNat
  | _, _ => 0

/-- A job survives at least to its backup models, and then has the class's own budget. -/
def retryCeiling (job : JobRow) (base : Nat) : Nat :=
  if 0 < backupAfterAttempts job then backupAfterAttempts job + base else base

def isSingleModelJob (job : JobRow) : Bool :=
  match job.policy.allowedModels with
  | some models => models.eraseDups.length = 1 ∧ backupAfterAttempts job = 0
  | none => false

def outputBudgetCeiling (job : JobRow) : Nat :=
  if isSingleModelJob job then config.maxSingleModelOutputBudgetRetries
  else retryCeiling job config.maxUpstreamCapacityRetries

/-- Whether the transient budget of the failure's class allows another try. -/
def retriesTransient (job : JobRow) (result : CallResult) : Bool :=
  let retries := job.transientRetryCount
  let transientCeiling := retryCeiling job config.max5xxRetries
  let upstreamCeiling := retryCeiling job config.maxUpstreamCapacityRetries
  (isOutputBudgetExhausted result ∧ retries < outputBudgetCeiling config job) ∨
    (isRouteUnavailable result ∧ retries < upstreamCeiling) ∨
    (isTransientRouteFailure job result ∧ retries < transientCeiling) ∨
    (isPromptCap result ∧ retries < upstreamCeiling) ∨
    (result.outcome = .retryableError ∧ result.providerStatusCode = some 402 ∧
      retries < transientCeiling) ∨
    (result.providerStatusCode = some 429 ∧ retries < transientCeiling) ∨
    (isUpstreamClass result ∧ retries < upstreamCeiling)

/-- Whether a job goes back to the queue. A rejection that excludes a route is
decided by whether another route is left, and by no budget. -/
def shouldRequeue (estimates : Estimates) (routes : Dict String RouteLedger) (job : JobRow)
    (result : CallResult) : Bool :=
  if isSizeRejection result then
    0 < catalog.sizeRoutesLeft estimates routes (excludedJob catalog job result)
  else if isQuotaRejection catalog job result then
    0 < catalog.quotaRoutesLeft
      { job with quotaExcludedRoutes := nextQuotaExcludedRoutes catalog job result }
  else if isResponseTimeout job result then
    0 < catalog.timeoutRoutesLeft estimates routes
      { job with responseTimeoutRoutes := nextResponseTimeoutRoutes job result }
  else retriesTransient config job result

/-! ## The job -/

/-- What a result makes of its job. -/
inductive JobOutcome
  | requeue (job : JobRow) (models : List String)
  | settle (after : JobRow)

/-- A late start was no attempt of the job's. -/
def deferredOutcome (job : JobRow) : JobOutcome :=
  .requeue { job with updatedAt := now } (catalog.lanes.modelsToIndex job)

def requeuedOutcome (job : JobRow) (result : CallResult) : JobOutcome :=
  let excluded := excludedJob catalog job result
  .requeue
    { excluded with
      transientRetryCount :=
        if isSizeRejection result ∨ isQuotaRejection catalog job result ∨
            isResponseTimeout job result then job.transientRetryCount
        else job.transientRetryCount + 1
      updatedAt := now }
    (catalog.lanes.modelsToIndex excluded)

/-- A success writes its result and leaves the other columns. -/
def JobRow.completedWith (job : JobRow) (result : CallResult) (now : ℚ) : JobRow :=
  { job with state := .completed, resultKey := result.resultKey, updatedAt := now }

/-- Why a job that is not requeued failed, where its exclusions say so. -/
def failureReason (job : JobRow) (result : CallResult) : Option String :=
  if isResponseTimeout job result ∨
      (isSizeRejection result ∧ ∃ entry ∈ nextTimeoutCounts job result, 2 ≤ entry.2) then
    some "timeout_recovery_exhausted"
  else if isQuotaRejection catalog job result ∨
      (isSizeRejection result ∧ job.quotaExcludedRoutes.getD [] ≠ []) then
    some "quota_recovery_exhausted"
  else if isSizeRejection result then some "input_too_large"
  else none

def failedOutcome (job : JobRow) (result : CallResult) : JobOutcome :=
  .settle
    { job with
      state := .failed
      updatedAt := now
      terminalReason := (failureReason catalog job result).or job.terminalReason
      quotaExcludedRoutes := nextQuotaExcludedRoutes catalog job result
      responseTimeoutRoutes := nextResponseTimeoutRoutes job result }

/-- An outcome that is not recognized leaves the job as it is. -/
def jobOutcome (estimates : Estimates) (routes : Dict String RouteLedger) (row : JobRow)
    (result : CallResult) : Option JobOutcome :=
  let job := countedJob row result
  match result.outcome with
  | .unrecognized _ => none
  | .deferredLate => some (deferredOutcome catalog now job)
  | .success =>
      if shouldRequeue config catalog estimates routes job result then
        some (requeuedOutcome catalog now job result)
      else some (.settle (row.completedWith result now))
  | .retryableError | .terminalError =>
      if shouldRequeue config catalog estimates routes job result then
        some (requeuedOutcome catalog now job result)
      else some (failedOutcome catalog now job result)

def JobTables.apply (outcome : JobOutcome) (tables : JobTables) : JobTables :=
  match outcome with
  | .requeue job models => tables.requeue job models
  | .settle after => tables.settle after

/-! ## The routes -/

def ensureRoute (routeId : String) (tpm : Option ℚ) (routes : Dict String RouteLedger) :
    Dict String RouteLedger :=
  match routes.get? routeId with
  | some _ => routes
  | none => routes.set routeId (newRouteRow (limitOf tpm * fullTokenBudgetWindows) now)

/-- The routes that share a route's account; all of its provider's without one. -/
def CompletionCatalog.accountRoutes (route : CatalogRoute) : List String :=
  Dict.keys (catalog.routes.filter fun entry =>
    decide (entry.2.provider = route.provider ∧
      (route.accountId.getD "" = "" ∨ entry.2.accountId = route.accountId)))

/-- Stand down every route of an account whose credential is invalid. -/
def blockAccount (route : CatalogRoute) (result : CallResult) (routes : Dict String RouteLedger) :
    Dict String RouteLedger :=
  (catalog.accountRoutes route).foldl
    (fun routes other =>
      updateRoute other (blockUnavailable config result now) (ensureRoute now other none routes))
    routes

/-- Whether a failure stands down more than the route it ran on. -/
def blocksAccount (route : CatalogRoute) (result : CallResult) : Bool :=
  ¬ isPaymentRequiredResult result ∧ isRouteUnavailable result ∧ isAccountScope result ∧
    route.provider ≠ ""

/-- Whether the backoff of a failure begins by reading a ledger row, and so creates it. -/
def readsLedger (job : JobRow) (result : CallResult) : Bool :=
  isPaymentRequiredResult result ∨
    (¬ isRouteUnavailable result ∧ ¬ isPromptCap result ∧ ¬ isSizeRejection result ∧
      ¬ (isTransientRouteFailure job result ∧ ¬ isUpstreamClass result) ∧ isUpstreamClass result)

/-- The backoff state a failure leaves its route, or its whole account, in. -/
def backOffRoutes (routeId : String) (rejectedInput : ℚ) (job : JobRow) (report : Report)
    (routes : Dict String RouteLedger) : Dict String RouteLedger :=
  let route := catalog.route routeId
  if blocksAccount route report.result then blockAccount config catalog now route report.result routes
  else
    updateRoute routeId (backOff config route rejectedInput job report.result report.draws now)
      (if readsLedger job report.result then ensureRoute now routeId none routes else routes)

/-- Release a failed call's reservation, with its charge where it used no quota. -/
def releaseCall (route : CatalogRoute) (job : JobRow) (result : CallResult) (row : RouteLedger) :
    RouteLedger :=
  let released := releaseFailure route job result now row
  if nonConsuming job result then refundClaim route job result released else released

def settleFailureOn (routeId : String) (rejectedInput : ℚ) (job : JobRow) (report : Report)
    (routes : Dict String RouteLedger) : Dict String RouteLedger :=
  backOffRoutes config catalog now routeId rejectedInput job report
    (updateRoute routeId (releaseCall now (catalog.route routeId) job report.result) routes)

/-! ## The batch -/

structure CompletionProgress where
  tables : JobTables
  routes : Dict String RouteLedger
  estimates : Estimates
  pending : Dict String PendingSuccess := []
  requeued : Nat := 0
  completed : Nat := 0
  failed : Nat := 0
  settled : Nat := 0

def flushRoute (routeId : String) (progress : CompletionProgress) : CompletionProgress :=
  match progress.pending.get? routeId with
  | none => progress
  | some pending =>
      { progress with
        routes := updateRoute routeId (flushSuccess (catalog.route routeId) pending now) progress.routes
        pending := progress.pending.erase routeId }

def settleOnRoute (routeId : String) (job : JobRow) (report : Report)
    (progress : CompletionProgress) : CompletionProgress :=
  if report.result.outcome = .success then
    { progress with
      pending := progress.pending.set routeId
        (((progress.pending.get? routeId).getD {}).add (catalog.route routeId) job report.result) }
  else
    let flushed := flushRoute catalog now routeId progress
    { flushed with
      routes := settleFailureOn config catalog now routeId
        (catalog.rejectedInput flushed.estimates routeId job) job report flushed.routes }

def settleRoute (job : JobRow) (report : Report) (progress : CompletionProgress) :
    CompletionProgress :=
  match job.leaseRouteId with
  | none => progress
  | some routeId =>
      let settled := settleOnRoute config catalog now routeId job report progress
      { settled with estimates := catalog.calibrate settled.estimates job report.result }

/-- Sizing a rejected job reads, and so creates, the ledgers of its routes. -/
def sizeJob (job : JobRow) (result : CallResult) (routes : Dict String RouteLedger) :
    Dict String RouteLedger :=
  if isSizeRejection result then
    (catalog.sizedRoutes (excludedJob catalog job result)).foldl
      (fun routes routeId => ensureRoute now routeId (catalog.route routeId).tpm routes) routes
  else routes

def CompletionProgress.count (outcome : JobOutcome) (result : CallResult)
    (progress : CompletionProgress) : CompletionProgress :=
  { progress with
    settled := progress.settled + 1
    completed := progress.completed + if result.outcome = .success then 1 else 0
    requeued :=
      progress.requeued +
        match outcome with
        | .requeue _ _ => 1
        | .settle _ => 0
    failed :=
      progress.failed +
        match outcome with
        | .requeue _ _ => 0
        | .settle after => if after.state = .failed then 1 else 0 }

/-- The result of a live lease. -/
def settleReport (row : JobRow) (report : Report) (progress : CompletionProgress) :
    CompletionProgress :=
  let job := countedJob row report.result
  let sized := { progress with routes := sizeJob catalog now job report.result progress.routes }
  match jobOutcome config catalog now sized.estimates sized.routes row report.result with
  | none => sized
  | some outcome =>
      settleRoute config catalog now job report
        ({ sized with tables := sized.tables.apply outcome }.count outcome report.result)

/-- A result of a lease that has moved on is ignored. -/
def completeReport (progress : CompletionProgress) (report : Report) : CompletionProgress :=
  match progress.tables.jobs.get? report.result.jobId with
  | none => progress
  | some row =>
      if row.state = .leased ∧ row.leaseToken = some report.result.leaseToken then
        settleReport config catalog now row report progress
      else progress

/-- Write the pending successes that are left. -/
def flushAll (progress : CompletionProgress) : CompletionProgress :=
  progress.pending.keys.foldl (fun progress routeId => flushRoute catalog now routeId progress)
    progress

def completeReports (reports : List Report) (progress : CompletionProgress) : CompletionProgress :=
  flushAll catalog now (reports.foldl (completeReport config catalog now) progress)

def JobTables.leasedInBundle (bundleId : String) (tables : JobTables) : Nat :=
  match tables.leases with
  | some leases => (leases.values.filter fun entry => decide (entry.bundleId = bundleId)).length
  | none =>
      (tables.jobs.values.filter fun job =>
        decide (job.state = .leased ∧ job.bundleId = some bundleId)).length

def completionStart (state : Coordinator) : CompletionProgress where
  tables := state.tables
  routes := state.routes
  estimates := state.estimates

/-- The counters ride on one write of the scheduler's row, and a bundle in which
nothing is leased any more is removed. -/
def commitCompletion (bundleId : String) (progress : CompletionProgress) (state : Coordinator) :
    Coordinator :=
  { state with
    tables := progress.tables
    routes := progress.routes
    estimates := progress.estimates
    bundles :=
      if 0 < progress.settled ∧ progress.tables.leasedInBundle bundleId = 0 then
        state.bundles.erase bundleId
      else state.bundles
    scheduler :=
      { state.scheduler with
        queuedJobCount := state.scheduler.queuedJobCount + progress.requeued
        completedToday := state.scheduler.completedToday + progress.completed
        failedToday := state.scheduler.failedToday + progress.failed
        retriedToday := state.scheduler.retriedToday + progress.requeued } }

/-- Whether the caller's bundle is still the one that was claimed. -/
def bundleIsLive (bundleId executionToken : String) (state : Coordinator) : Bool :=
  ∃ bundle ∈ state.bundles.get? bundleId, bundle.executionToken = executionToken

def completeBatch (bundleId executionToken : String) (reports : List Report)
    (state : Coordinator) : Coordinator :=
  if bundleIsLive bundleId executionToken state then
    let begun := state.ensureQueuedJobCounter
    commitCompletion bundleId (completeReports config catalog now reports (completionStart begun))
      begun
  else state

end

end CityPods.Dispatch
