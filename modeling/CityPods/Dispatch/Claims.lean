import CityPods.Dispatch.Coordinator
import CityPods.Foundation.JsonText

/-! # Claims

One claim of a dispatch window: expired leases go back to the queue, unroutable
jobs are reconciled with the catalog, and queued jobs for which a route has
capacity are leased to a new bundle, all in one transaction.
-/

namespace CityPods.Dispatch

open Foundation

/-! ## Configuration -/

structure ClaimLimits where
  maxBundlesPerUtcDay : Nat := 1000
  maxLeasesPerUtcDay : Nat := 7000
  maxActiveBundles : Nat := 2
  maxInFlightLlmCalls : Nat := 8
  maxBundleJobs : Nat := 4
  maxJobsPerModelClaim : Nat := 4
  maxCandidateLookahead : Nat := 32
  maxConcurrentRouteLanes : Nat := 5
  maxJobsPerRoutePerBundle : Nat := 4
  maxUnroutableReconcilePerTick : Nat := 20
  estimateFloor : ℚ := 0
  callDurationCeilingMs : ℚ := 20000
  leaseDurationMs : ℚ := 840000
  recoveryIntervalMs : ℚ := 0
  claimRowStop : ℚ
  accountRowsStop : ℚ
  enqueueRowStop : ℚ

def ClaimLimits.candidateLookahead (limits : ClaimLimits) : Nat :=
  max limits.maxJobsPerModelClaim limits.maxCandidateLookahead

def rowsPerBundle : Nat := 4

def rowsPerLeaseWorst : Nat := 23

structure ClaimRoute where
  routeId : String
  model : String
  catalog : CatalogRoute
  concurrency : Option Nat := none
  providerConcurrency : Option Nat := none
  yieldsTo : List String := []

structure ProviderConfig where
  concurrency : Option Nat := none
  tpm : Option ℚ := none

/-- A model with live capacity, in the order in which models are served. -/
structure ModelPlan where
  model : String
  ceilingBound : Bool

/-- What the learned estimates say of a prompt family on a route. -/
structure SizeCalibration where
  inputRatio : Option ℚ := none
  admitRatio : Option ℚ := none
  outputForecast : Option ℚ := none

/-- The catalog of a claim: the static tables, the ranking of models and routes by
live capacity, and the calibration. Paused routes are in no ranking. -/
structure ClaimCatalog where
  lanes : LaneCatalog
  digest : String
  routesForUnroutableJob : JobRow → List String
  routesById : String → Option ClaimRoute
  providers : String → Option ProviderConfig
  rankModelsByCapacity : Coordinator → List ModelPlan
  routesEligibleFor : Dict String RouteLedger → JobRow → List ClaimRoute
  structuralRoutesFor : Dict String RouteLedger → JobRow → List ClaimRoute
  calibration : ClaimRoute → JobRow → SizeCalibration

/-- One call: its times, its random identifiers, what the storage has billed, where
the last extended reads stopped, and the ledgers it is the first to touch. -/
structure ClaimCall where
  now : ℚ
  wallClock : ℚ
  windowSeconds : ℚ
  paused : Bool := false
  rowsWrittenToday : ℚ
  rowsAtReconcile : ℚ
  bundleId : String
  executionToken : String
  leaseToken : String → String
  frontier : String → Option QueuePosition
  touchedRoutes : List ClaimRoute := []
  touchedProviders : List String := []

def ClaimCall.dispatchWindowEnd (call : ClaimCall) : ℚ := call.now + call.windowSeconds * 1000

inductive ClaimReason
  | dispatchPaused
  | dailyRowBudget
  | dailyBundleLimit
  | dailyLeaseLimit
  | activeBundleLimit
  | inFlightCallLimit
  | noQueuedWork
  | noRankedCandidates
  | concurrencyLimit
  | mixedAdmissionLimits
  | routeCapacity
  | noEligibleRoute
  | dispatchWindowCapacity
  | claimed
  deriving DecidableEq

structure LeasedJob where
  id : String
  requestDigest : String
  payloadKey : String
  leaseToken : String
  leaseExpiresAt : ℚ
  routeId : String
  purpose : String
  promptFamily : String
  attemptOrdinal : Nat
  inputTokenEstimate : ℚ
  tokenReservation : ℚ
  waitMs : ℚ
  notBeforeAt : ℚ
  minInterRequestGapMs : ℚ

structure ClaimReply where
  bundle : Option (String × String) := none
  jobs : List LeasedJob := []
  reason : ClaimReason

/-! ## Row budget -/

def JobTables.leaseCount (tables : JobTables) : Nat :=
  match tables.leases with
  | some leases => leases.length
  | none => (tables.jobs.values.filter fun job => decide (job.state = .leased)).length

def JobTables.leaseCountOn (routeId : String) (tables : JobTables) : Nat :=
  match tables.leases with
  | some leases => (leases.values.filter fun entry => decide (entry.leaseRouteId = routeId)).length
  | none =>
      (tables.jobs.values.filter fun job =>
        decide (job.state = .leased ∧ job.leaseRouteId = some routeId)).length

def JobTables.leasedRoutes (tables : JobTables) : List String :=
  match tables.leases with
  | some leases => (leases.values.map LeaseEntry.leaseRouteId).dedup
  | none =>
      ((tables.jobs.values.filter fun job => decide (job.state = .leased)).filterMap
        JobRow.leaseRouteId).dedup

def ClaimLimits.leasesRemaining (limits : ClaimLimits) (state : Coordinator) : Nat :=
  limits.maxLeasesPerUtcDay - state.scheduler.leaseCountToday

def ClaimLimits.bundleJobLimit (limits : ClaimLimits) (state : Coordinator) : Nat :=
  min limits.maxBundleJobs (limits.leasesRemaining state)

/-- The rows that completing what is in flight may still write. -/
def inFlightReserveRows (state : Coordinator) : ℚ :=
  state.tables.leaseCount * rowsPerLeaseWorst + state.bundles.length * rowsPerBundle

def nextBundleReserveRows (limits : ClaimLimits) (state : Coordinator) : ℚ :=
  if 0 < limits.bundleJobLimit state then
    rowsPerBundle + limits.bundleJobLimit state * rowsPerLeaseWorst
  else 0

/-- Past the claim threshold every row left belongs to what is in flight. -/
def claimBraked (limits : ClaimLimits) (call : ClaimCall) (state : Coordinator) : Bool :=
  limits.claimRowStop ≤ call.rowsWrittenToday ∨
    limits.accountRowsStop ≤
      call.rowsWrittenToday + inFlightReserveRows state + nextBundleReserveRows limits state

/-- The counters of a claim ride on one update of the scheduler's row. -/
def Coordinator.recordClaimOutcome (bundlesClaimed leasesClaimed : Nat) (queuedDelta : ℤ)
    (state : Coordinator) : Coordinator :=
  { state with
    scheduler :=
      { state.scheduler with
        bundleCountToday := state.scheduler.bundleCountToday + bundlesClaimed
        leaseCountToday := state.scheduler.leaseCountToday + leasesClaimed
        queuedJobCount := max 0 (state.scheduler.queuedJobCount + queuedDelta) } }

/-! ## Recovery -/

def updateRoute (routeId : String) (edit : RouteLedger → RouteLedger)
    (routes : Dict String RouteLedger) : Dict String RouteLedger :=
  match routes.get? routeId with
  | some row => routes.set routeId (edit row)
  | none => routes

def RouteLedger.releaseReservation (reservation : ℚ) (row : RouteLedger) : RouteLedger :=
  { row with provisionalReservation := max 0 (row.provisionalReservation - reservation) }

def recoveryDue (limits : ClaimLimits) (now : ℚ) (scheduler : Scheduler) : Bool :=
  match scheduler.lastRecoveryAt with
  | none => true
  | some last => limits.recoveryIntervalMs = 0 ∨ now < last ∨ limits.recoveryIntervalMs ≤ now - last

/-- The leased jobs whose lease expired before `now`. -/
def JobTables.expiredLeasedJobs (now : ℚ) (tables : JobTables) : List JobRow :=
  match tables.leases with
  | none =>
      tables.jobs.values.filter fun job =>
        decide (job.state = .leased ∧ ∃ expiresAt ∈ job.leaseExpiresAt, expiresAt < now)
  | some leases =>
      (leases.filter fun entry => decide (entry.2.leaseExpiresAt < now)).filterMap fun entry =>
        (tables.jobs.get? entry.1).filter fun job => decide (job.state = .leased)

/-- Registry entries whose job is no longer leased are dropped on the way. -/
def JobTables.dropStaleLeases (now : ℚ) (tables : JobTables) : JobTables :=
  { tables with
    leases := tables.leases.map fun leases => leases.filter fun entry =>
      ¬ (entry.2.leaseExpiresAt < now ∧
        ((tables.jobs.get? entry.1).map JobRow.state) ≠ some .leased) }

def reservationsByRoute (expired : List JobRow) : Dict String ℚ :=
  expired.foldl
    (fun held job =>
      match job.leaseRouteId with
      | some routeId =>
          if 0 < job.tokenReservation then
            held.set routeId ((held.get? routeId).getD 0 + job.tokenReservation)
          else held
      | none => held)
    []

def releaseExpired (expired : List JobRow) (routes : Dict String RouteLedger) :
    Dict String RouteLedger :=
  (reservationsByRoute expired).foldl
    (fun routes held => updateRoute held.1 (RouteLedger.releaseReservation held.2) routes) routes

/-- A dead lease's job goes back to the queue. -/
def requeueExpired (catalog : LaneCatalog) (now : ℚ) (tables : JobTables) (job : JobRow) :
    JobTables :=
  tables.requeue { job with tokenReservation := 0, updatedAt := now } (catalog.modelsToIndex job)

def JobTables.leasedBundleIds (tables : JobTables) : List String :=
  match tables.leases with
  | some leases => leases.values.map LeaseEntry.bundleId
  | none =>
      (tables.jobs.values.filter fun job => decide (job.state = .leased)).filterMap
        JobRow.bundleId

def Coordinator.recover (catalog : LaneCatalog) (now : ℚ) (state : Coordinator) : Coordinator :=
  let expired := state.tables.expiredLeasedJobs now
  let tables :=
    expired.foldl (requeueExpired catalog now) (state.tables.dropStaleLeases now)
  { state with
    tables := tables
    routes := releaseExpired expired state.routes
    bundles := state.bundles.filter fun entry =>
      decide (¬ entry.2.leaseExpiresAt < now ∧ entry.1 ∈ tables.leasedBundleIds)
    scheduler := { state.scheduler with lastRecoveryAt := some now } }

def Coordinator.recoverIfDue (limits : ClaimLimits) (catalog : LaneCatalog) (now : ℚ)
    (state : Coordinator) : Coordinator × Nat :=
  if recoveryDue limits now state.scheduler then
    (state.recover catalog now, (state.tables.expiredLeasedJobs now).length)
  else (state, 0)

/-! ## Reconciling unroutable jobs -/

def RescueKey.precedes (left right : RescueKey) : Bool :=
  left.updatedAt < right.updatedAt ∨ (left.updatedAt = right.updatedAt ∧ left.id < right.id)

def JobRow.rescueKey (job : JobRow) : RescueKey := ⟨job.updatedAt, job.id⟩

def JobTables.queuedByUpdate (tables : JobTables) : List JobRow :=
  (tables.jobs.values.filter fun job => decide (job.state = .queued)).mergeSort
    fun left right => !right.rescueKey.precedes left.rescueKey

/-- A pass begins before the first queued job and ends at what is the last one now. -/
def JobTables.freshCursor (tables : JobTables) : RescueCursor where
  after := ⟨-1, ""⟩
  through := (tables.queuedByUpdate.getLast?.map JobRow.rescueKey).getD ⟨-1, ""⟩

/-- The cursor of a pass in progress; a changed catalog starts a new pass, and
between passes there is none. -/
def rescueCursor (digest : String) (state : Coordinator) : Option RescueCursor :=
  if state.scheduler.catalogDigest ≠ some digest then some state.tables.freshCursor
  else if state.scheduler.catalogRescueComplete then none
  else some (state.scheduler.catalogRescueCursor.getD state.tables.freshCursor)

/-- The queued jobs to look at: the next ones of the pass, or those without a route. -/
def rescuePage (limit : Nat) (cursor : Option RescueCursor) (tables : JobTables) : List JobRow :=
  match cursor with
  | some cursor =>
      (tables.queuedByUpdate.filter fun job =>
        cursor.after.precedes job.rescueKey && !cursor.through.precedes job.rescueKey).take limit
  | none =>
      (tables.queue.readCandidates tables.jobs "__unroutable__" none limit).map Candidate.job

/-- Whether the catalog still gives a job the models it is indexed under. -/
def indexedAsCatalog (catalog : ClaimCatalog) (job : JobRow) : Bool :=
  match job.queueModels, catalog.lanes.modelsForQueuedJob job with
  | some indexed, model :: models => indexed.isPerm (model :: models)
  | _, _ => false

def reconcileWrites (catalog : ClaimCatalog) (job : JobRow) : Nat :=
  if indexedAsCatalog catalog job then 0
  else
    let indexed :=
      match job.queueModels with
      | some models => models.length
      | none => (job.policy.allowedModels.getD []).length + (job.policy.backupModels.getD []).length + 1
    5 + 2 * indexed + 2 * (catalog.lanes.modelsForQueuedJob job).length +
      2 * (catalog.routesForUnroutableJob job).length

/-- Two settled response deadlines exhaust a route for a job. -/
def timeoutExcludedRoutes (job : JobRow) : List String :=
  Dict.keys ((job.responseTimeoutRoutes.getD []).filter fun entry => decide (2 ≤ entry.2))

/-- Why a job that has run out of routes failed. -/
def exhaustedReason (job : JobRow) (otherwise : String) : String :=
  if timeoutExcludedRoutes job ≠ [] then "timeout_recovery_exhausted"
  else if job.quotaExcludedRoutes.getD [] ≠ [] then "quota_recovery_exhausted"
  else otherwise

def JobRow.failedAt (job : JobRow) (reason digest : String) (now : ℚ) : JobRow :=
  { job with
    state := .failed
    terminalReason := some reason
    terminalCatalogDigest := some digest
    updatedAt := now }

/-- Move a job to the models the catalog gives it, or fail it where it gives none. -/
def reconcileJob (catalog : ClaimCatalog) (now : ℚ) (tables : JobTables) (job : JobRow) :
    Option JobTables :=
  match catalog.lanes.modelsForQueuedJob job with
  | [] =>
      let otherwise :=
        if (catalog.routesForUnroutableJob job).isEmpty then "route_retired" else "unadmissible"
      tables.withdraw job (job.failedAt (exhaustedReason job otherwise) catalog.digest now)
  | model :: models => tables.reindex job (model :: models)

def staleJobs (catalog : ClaimCatalog) (page : List JobRow) : List JobRow :=
  page.filter fun job => !indexedAsCatalog catalog job

/-- The cursor's progress is written with the scheduler's row. -/
def Scheduler.advanceRescue (limit : Nat) (digest : String) (cursor : Option RescueCursor)
    (page : List JobRow) (scheduler : Scheduler) : Scheduler :=
  match cursor with
  | none => scheduler
  | some cursor =>
      { scheduler with
        catalogDigest := some digest
        catalogRescueCursor :=
          some { cursor with
            after := (page.getLast?.map JobRow.rescueKey).getD cursor.after }
        catalogRescueComplete := page.length < limit }

/-- The rows a reconciliation may not reach: what is in flight has a claim on the rest. -/
def reconcileRowStop (limits : ClaimLimits) (state : Coordinator) : ℚ :=
  min limits.enqueueRowStop
    (limits.accountRowsStop - inFlightReserveRows state - nextBundleReserveRows limits state)

/-- One bounded page of the reconciliation, and how many jobs it failed. -/
def reconcileUnroutableJobs (limits : ClaimLimits) (catalog : ClaimCatalog) (call : ClaimCall)
    (rowStop : ℚ) (state : Coordinator) : Option (Coordinator × Nat) :=
  let limit := limits.maxUnroutableReconcilePerTick
  let cursor := rescueCursor catalog.digest state
  let page := rescuePage limit cursor state.tables
  let worstWrites := 1 + (page.map (reconcileWrites catalog)).sum
  if limit = 0 ∨ rowStop ≤ call.rowsAtReconcile + 1 ∨
      rowStop ≤ call.rowsAtReconcile + worstWrites then some (state, 0)
  else
    ((staleJobs catalog page).foldlM (reconcileJob catalog call.now) state.tables).map fun tables =>
      ({ state with
          tables := tables
          scheduler := state.scheduler.advanceRescue limit catalog.digest cursor page },
        ((staleJobs catalog page).filter fun job =>
          (catalog.lanes.modelsForQueuedJob job).isEmpty).length)

/-! ## Selection -/

/-- What refused a job on a route. -/
inductive Gate
  | routeYield
  | routeLaneLimit
  | routeBundleLimit
  | routeConcurrency
  | providerConcurrency
  | routeCapacity
  deriving DecidableEq

/-- A job with the route it goes to. A drained job is over the route's ceiling,
within its tolerance. -/
structure Chosen where
  job : JobRow
  route : ClaimRoute
  drain : Bool := false

structure Selection where
  chosen : List Chosen := []
  drains : List Chosen := []
  oversize : List JobRow := []
  candidateJobs : Nat := 0
  rejections : List Gate := []

def chosenIds (chosen : List Chosen) : List String := chosen.map fun entry => entry.job.id

def seenRoutes (chosen : List Chosen) : List String :=
  (chosen.map fun entry => entry.route.routeId).dedup

def countInBundle (chosen : List Chosen) (routeId : String) : Nat :=
  (chosen.filter fun entry => decide (entry.route.routeId = routeId)).length

def countOfProvider (chosen : List Chosen) (provider : String) : Nat :=
  (chosen.filter fun entry => decide (entry.route.catalog.provider = provider)).length

/-- A limit that is absent or zero is none. -/
def atLimit (limit : Option Nat) (count : Nat) : Bool :=
  match limit with
  | some limit => 0 < limit ∧ limit ≤ count
  | none => false

namespace Selection

def refuse (gate : Gate) (selection : Selection) : Selection :=
  { selection with rejections := selection.rejections ++ [gate] }

def choose (job : JobRow) (route : ClaimRoute) (selection : Selection) : Selection :=
  { selection with chosen := selection.chosen ++ [⟨job, route, false⟩] }

/-- Keep a near miss aside, once for each job. -/
def keepAside (job : JobRow) (route : ClaimRoute) (selection : Selection) : Selection :=
  if job.id ∈ chosenIds selection.drains then selection
  else { selection with drains := selection.drains ++ [⟨job, route, true⟩] }

def failOversize (job : JobRow) (selection : Selection) : Selection :=
  { selection with oversize := selection.oversize ++ [job] }

end Selection

section

variable (calendar : Calendar) (limits : ClaimLimits) (catalog : ClaimCatalog) (call : ClaimCall)

def mergedRoute (routes : Dict String RouteLedger) (route : ClaimRoute) : RouteLedger :=
  getOrCreateRouteLedger routes route.routeId call.now route.catalog.tpm

def providerTpm (provider : String) : Option ℚ := (catalog.providers provider).bind ProviderConfig.tpm

def getOrCreateProviderLedger (providers : Dict String ProviderLedger) (provider : String) :
    ProviderLedger :=
  (providers.get? provider).getD
    { fullTokenBudget := limitOf (providerTpm catalog provider) * fullTokenBudgetWindows
      tokenBudgetUpdatedAt := call.now }

def capacityOptions (providers : Dict String ProviderLedger) (route : ClaimRoute) (job : JobRow)
    (ceilingTolerance : Bool) : PacingOptions :=
  let calibration := catalog.calibration route job
  let provider := route.catalog.provider
  { estimateFloor := limits.estimateFloor
    inputRatio := calibration.inputRatio
    admitRatio := calibration.admitRatio
    outputForecast := calibration.outputForecast
    providerConfigTpm := providerTpm catalog provider
    providerLedger :=
      if provider = "" then none else some (getOrCreateProviderLedger catalog call providers provider)
    ceilingTolerance := ceilingTolerance }

def fits (state : Coordinator) (job : JobRow) (route : ClaimRoute) (ceilingTolerance : Bool) : Bool :=
  routeHasCapacityFor calendar route.catalog (mergedRoute call state.routes route) job.sized call.now
    call.windowSeconds limits.callDurationCeilingMs
    (capacityOptions limits catalog call state.providers route job ceilingTolerance)

/-- A route that yields steps aside while a route it names has queued work. -/
def yieldsNow (state : Coordinator) (route : ClaimRoute) : Bool :=
  route.yieldsTo.any fun target =>
    match catalog.routesById target with
    | some named => state.tables.queue.hasQueued named.model
    | none => false

def inFlightOfProvider (state : Coordinator) (provider : String) : Nat :=
  (state.tables.leasedRoutes.map fun routeId =>
    match catalog.routesById routeId with
    | some route =>
        if provider ≠ "" ∧ route.catalog.provider = provider then
          state.tables.leaseCountOn routeId
        else 0
    | none => 0).sum

def providerConcurrency (route : ClaimRoute) : Option Nat :=
  ((catalog.providers route.catalog.provider).bind ProviderConfig.concurrency).or
    route.providerConcurrency

/-- The first limit that keeps a route from taking any job now. -/
def closedBy (state : Coordinator) (chosen : List Chosen) (route : ClaimRoute) : Option Gate :=
  if yieldsNow catalog state route then some .routeYield
  else if route.routeId ∉ seenRoutes chosen ∧
      limits.maxConcurrentRouteLanes ≤ (seenRoutes chosen).length then some .routeLaneLimit
  else if limits.maxJobsPerRoutePerBundle ≤ countInBundle chosen route.routeId then
    some .routeBundleLimit
  else if atLimit route.concurrency
      (state.tables.leaseCountOn route.routeId + countInBundle chosen route.routeId) then
    some .routeConcurrency
  else if atLimit (providerConcurrency catalog route)
      (inFlightOfProvider catalog state route.catalog.provider +
        countOfProvider chosen route.catalog.provider) then
    some .providerConcurrency
  else none

/-- Offer a job to its routes in turn; the first with capacity takes it. -/
def offerRoutes (state : Coordinator) (job : JobRow) : List ClaimRoute → Selection → Selection
  | [], selection => selection
  | route :: later, selection =>
      match closedBy limits catalog state selection.chosen route with
      | some gate => offerRoutes state job later (selection.refuse gate)
      | none =>
          if fits calendar limits catalog call state job route false then
            selection.choose job route
          else if fits calendar limits catalog call state job route true then
            offerRoutes state job later ((selection.refuse .routeCapacity).keepAside job route)
          else offerRoutes state job later (selection.refuse .routeCapacity)

/-- The routes of a job, those without a lane in this bundle first. -/
def routeOrder (state : Coordinator) (job : JobRow) (selection : Selection) : List ClaimRoute :=
  let eligible := catalog.routesEligibleFor state.routes job
  (eligible.filter fun route => decide (route.routeId ∉ seenRoutes selection.chosen)) ++
    eligible.filter fun route => decide (route.routeId ∈ seenRoutes selection.chosen)

/-- Whether a route's ceiling, with its tolerance or what it has served, is below a job's size. -/
def exceedsCeiling (state : Coordinator) (job : JobRow) (route : ClaimRoute) : Bool :=
  let ledger := mergedRoute call state.routes route
  if 0 < ledger.promptCapEstimate ∧ ledger.promptCapEstimate < job.inputTokenEstimate then true
  else
    match hardInputCeilingLimit route.catalog true with
    | none => false
    | some limit =>
        max limit (learnedCeilings ledger call.wallClock).acceptedMax <
          scaledInputTokens job.inputTokenEstimate ((catalog.calibration route job).admitRatio.getD 0)

/-- A job too large for every route it fits by context window alone. -/
def exceedsEveryLiveCeiling (state : Coordinator) (job : JobRow) : Bool :=
  let routes := catalog.structuralRoutesFor state.routes job
  !routes.isEmpty && routes.all (exceedsCeiling catalog call state job)

/-- A job that was neither chosen nor kept aside is failed where no ceiling takes it. -/
def judgeSize (state : Coordinator) (job : JobRow) (selection : Selection) : Selection :=
  if job.id ∉ chosenIds selection.chosen ∧ job.id ∉ chosenIds selection.drains ∧
      job.id ∉ selection.oversize.map JobRow.id ∧
      exceedsEveryLiveCeiling catalog call state job then
    selection.failOversize job
  else selection

def offerJob (state : Coordinator) (selection : Selection) (job : JobRow) : Selection :=
  if job.id ∈ chosenIds selection.chosen then selection
  else
    judgeSize catalog call state job
      (offerRoutes calendar limits catalog call state job (routeOrder catalog state job selection)
        { selection with candidateJobs := selection.candidateJobs + 1 })

/-- Whether a bundle, or the share of the model whose turn it is, is full. -/
def fullFor (bundleJobLimit start : Nat) (selection : Selection) : Bool :=
  bundleJobLimit ≤ selection.chosen.length ∨
    start + limits.maxJobsPerModelClaim ≤ selection.chosen.length

def offerJobs (state : Coordinator) (bundleJobLimit start : Nat) (selection : Selection)
    (candidates : List Candidate) : Selection :=
  candidates.foldl
    (fun selection candidate =>
      if fullFor limits bundleJobLimit start selection then selection
      else offerJob calendar limits catalog call state selection candidate.job)
    selection

def ClaimLimits.headLimit (plan : ModelPlan) : Nat :=
  if plan.ceilingBound then limits.candidateLookahead else limits.maxJobsPerModelClaim

def ClaimLimits.extraLimit (plan : ModelPlan) : Nat :=
  if plan.ceilingBound then limits.candidateLookahead
  else limits.candidateLookahead - limits.headLimit plan

/-- The order in which the platform compares texts: by their UTF-16 code units. -/
def unitsPrecede (left right : String) : Bool := JsonText.units left < JsonText.units right

/-- Whether the frontier is beyond the end of the head, as the platform compares them. -/
def QueuePosition.isBefore (headEnd frontier : QueuePosition) : Bool :=
  headEnd.priority < frontier.priority ∨ (headEnd.priority = frontier.priority ∧
    (headEnd.createdAt < frontier.createdAt ∨
      (headEnd.createdAt = frontier.createdAt ∧ unitsPrecede headEnd.jobId frontier.jobId)))

/-- Where an extended read begins: at the frontier, once it is beyond the head. -/
def startAfter (plan : ModelPlan) (head : List Candidate) : Option QueuePosition :=
  match head.getLast?, call.frontier plan.model with
  | some last, some frontier =>
      if last.position.isBefore frontier then some frontier else some last.position
  | some last, none => some last.position
  | none, frontier => frontier

/-- The turn of one model: the head of its queue, and beyond it while the head is stuck. -/
def offerModel (state : Coordinator) (bundleJobLimit : Nat) (selection : Selection)
    (plan : ModelPlan) : Selection :=
  if bundleJobLimit ≤ selection.chosen.length then selection
  else
    let start := selection.chosen.length
    let read := fun after limit =>
      state.tables.queue.readCandidates state.tables.jobs plan.model after limit
    let head := read none (limits.headLimit plan)
    let offered := offerJobs calendar limits catalog call state bundleJobLimit start selection head
    if fullFor limits bundleJobLimit start offered ∨
        selection.oversize.length < offered.oversize.length ∨
        head.length < limits.headLimit plan then offered
    else
      offerJobs calendar limits catalog call state bundleJobLimit start offered
        (read (startAfter call plan head) (limits.extraLimit plan))

def selectJobs (state : Coordinator) (bundleJobLimit : Nat) : Selection :=
  (catalog.rankModelsByCapacity state).foldl
    (offerModel calendar limits catalog call state bundleJobLimit) {}

/-! ### The drain pass -/

/-- A near miss goes to a route that took nothing, at most one for each route. -/
def drainJob (state : Coordinator) (bundleJobLimit : Nat) (chosen : List Chosen) (entry : Chosen) :
    List Chosen :=
  if bundleJobLimit ≤ chosen.length ∨ entry.route.routeId ∈ seenRoutes chosen ∨
      limits.maxConcurrentRouteLanes ≤ (seenRoutes chosen).length ∨
      atLimit (providerConcurrency catalog entry.route)
        (inFlightOfProvider catalog state entry.route.catalog.provider +
          countOfProvider chosen entry.route.catalog.provider) then chosen
  else chosen ++ [entry]

/-- Near misses are tried only where nothing else is dispatched. -/
def drainPass (state : Coordinator) (bundleJobLimit : Nat) (selection : Selection) : List Chosen :=
  if selection.chosen.isEmpty then
    selection.drains.foldl (drainJob limits catalog state bundleJobLimit) []
  else selection.chosen

/-! ### Oversize jobs -/

/-- Fail a job that no live route takes at its size. -/
def failOversizeJob (tables : JobTables) (job : JobRow) : Option JobTables :=
  tables.withdraw job
    (job.failedAt (exhaustedReason job "unadmissible") catalog.digest call.now)

/-! ## Leasing -/

/-- A row with the columns a claim writes. The windows are those of the ledger that
the claim left, so that a refund can tell whether they are still the route's. -/
def JobRow.leasedOn (job : JobRow) (routeId : String) (entry : LeaseEntry) (leaseToken : String)
    (reservation : ℚ) (charged : RouteLedger) (now : ℚ) : JobRow :=
  { job with
    state := .leased
    leaseToken := some leaseToken
    leaseRouteId := some routeId
    leaseExpiresAt := some entry.leaseExpiresAt
    bundleId := some entry.bundleId
    tokenReservation := reservation
    attempts := job.attempts + 1
    reservationRpmWindowStart := charged.rpmWindowStart
    reservationRpdDayKey := charged.rpdDayKey
    reservationTpmWindowStart := charged.tpmWindowStart
    updatedAt := now }

/-- One route's lane as far as it is sequenced. -/
structure LaneProgress where
  tables : JobTables
  ledger : RouteLedger
  providers : Dict String ProviderLedger
  laneTime : ℚ
  leased : List LeasedJob := []

def leaseEntryFor (routeId : String) : LeaseEntry :=
  ⟨call.bundleId, routeId, call.now + limits.leaseDurationMs⟩

def leasedJob (route : ClaimRoute) (job : JobRow) (wait : LaneWait) : LeasedJob where
  id := job.id
  requestDigest := job.requestDigest
  payloadKey := job.payloadKey
  leaseToken := call.leaseToken job.id
  leaseExpiresAt := call.now + limits.leaseDurationMs
  routeId := route.routeId
  purpose := catalog.lanes.purposeForJob job
  promptFamily := job.promptFamily
  attemptOrdinal := job.attempts + 1
  inputTokenEstimate := job.inputTokenEstimate
  tokenReservation := wait.reservation
  waitMs := wait.waitMs
  notBeforeAt := wait.notBeforeAt
  minInterRequestGapMs := wait.minInterRequestGapMs

def chargeProvider (route : ClaimRoute) (wait : LaneWait) (providers : Dict String ProviderLedger) :
    Dict String ProviderLedger :=
  let provider := route.catalog.provider
  if provider = "" ∨ limitOf (providerTpm catalog provider) = 0 then providers
  else
    providers.set provider
      (applyProviderProvisionalReservation (providerTpm catalog provider)
        (getOrCreateProviderLedger catalog call providers provider) wait.reservation
        wait.notBeforeAt)

def leaseAt (route : ClaimRoute) (lane : LaneProgress) (job : JobRow) (wait : LaneWait) :
    Option LaneProgress :=
  let charged := applyProvisionalReservation calendar route.catalog lane.ledger wait.reservation
    wait.notBeforeAt (some (call.leaseToken job.id))
  let entry := leaseEntryFor limits call route.routeId
  let leased := job.leasedOn route.routeId entry (call.leaseToken job.id) wait.reservation charged
    call.now
  (lane.tables.lease job leased entry).map fun tables =>
    { tables := tables
      ledger := charged
      providers := chargeProvider catalog call route wait lane.providers
      laneTime := wait.notBeforeAt + wait.minInterRequestGapMs
      leased := lane.leased ++ [leasedJob limits catalog call route job wait] }

/-- Sequence a chosen job in its lane; one whose start no longer fits falls out. -/
def leaseJob (route : ClaimRoute) (lane : LaneProgress) (entry : Chosen) : Option LaneProgress :=
  match computeRouteLaneWait calendar route.catalog lane.ledger entry.job.sized lane.laneTime
      call.now (capacityOptions limits catalog call lane.providers route entry.job entry.drain) with
  | .error _ => some lane
  | .ok wait =>
      if call.dispatchWindowEnd < wait.notBeforeAt + limits.callDurationCeilingMs then some lane
      else leaseAt calendar limits catalog call route lane entry.job wait

/-- The lanes sequenced so far. -/
structure LanesProgress where
  tables : JobTables
  routes : Dict String RouteLedger
  providers : Dict String ProviderLedger
  leased : List LeasedJob := []

/-- One lane after the other; a route's ledger is written once. -/
def leaseLane (progress : LanesProgress) (lane : String × List Chosen) : Option LanesProgress :=
  match lane.2 with
  | [] => some progress
  | first :: _ =>
      let start : LaneProgress :=
        { tables := progress.tables
          ledger := mergedRoute call progress.routes first.route
          providers := progress.providers
          laneTime := call.now }
      (lane.2.foldlM (leaseJob calendar limits catalog call first.route) start).map fun after =>
        { tables := after.tables
          routes :=
            if after.leased.isEmpty then progress.routes
            else progress.routes.set lane.1 after.ledger
          providers := after.providers
          leased := progress.leased ++ after.leased }

def leaseLanes (state : Coordinator) (chosen : List Chosen) : Option LanesProgress :=
  (Dict.groupOn (fun entry => entry.route.routeId) chosen).foldlM
    (leaseLane calendar limits catalog call)
    { tables := state.tables, routes := state.routes, providers := state.providers }

/-! ## One claim -/

def touchLedgers (state : Coordinator) : Coordinator :=
  { state with
    routes := call.touchedRoutes.foldl
      (fun routes route => routes.set route.routeId (mergedRoute call routes route)) state.routes
    providers := call.touchedProviders.foldl
      (fun providers provider =>
        providers.set provider (getOrCreateProviderLedger catalog call providers provider))
      state.providers }

/-- Why nothing was chosen. -/
def emptyReason (state : Coordinator) (queuedDelta : ℤ) (selection : Selection) : ClaimReason :=
  let refusals := fun gate => selection.rejections.count gate
  let concurrencyRejected := refusals .routeConcurrency + refusals .providerConcurrency
  let otherRejected :=
    refusals .routeLaneLimit + refusals .routeBundleLimit + refusals .routeCapacity
  if max 0 (state.scheduler.queuedJobCount + queuedDelta) = 0 then .noQueuedWork
  else if selection.candidateJobs = 0 then .noRankedCandidates
  else if 0 < concurrencyRejected ∧ otherRejected = 0 then .concurrencyLimit
  else if 0 < concurrencyRejected then .mixedAdmissionLimits
  else if 0 < refusals .routeCapacity then .routeCapacity
  else .noEligibleRoute

/-- A claim that leases nothing still records what it requeued and failed. -/
def recordEmpty (reason : ClaimReason) (queuedDelta : ℤ) (state : Coordinator) :
    Coordinator × ClaimReply :=
  (state.recordClaimOutcome 0 0 queuedDelta, { reason := reason })

def recordClaimed (queuedDelta : ℤ) (lanes : LanesProgress) (state : Coordinator) :
    Coordinator × ClaimReply :=
  let leasedCount := lanes.leased.length
  ({ state with
      tables := lanes.tables
      routes := lanes.routes
      providers := lanes.providers
      bundles := state.bundles.set call.bundleId
        { executionToken := call.executionToken
          leaseExpiresAt := call.now + limits.leaseDurationMs
          activeCallCount := leasedCount
          dispatchWindowEnd := call.dispatchWindowEnd
          createdAt := call.now } }
      |>.recordClaimOutcome 1 leasedCount (queuedDelta - leasedCount),
    { bundle := some (call.bundleId, call.executionToken)
      jobs := lanes.leased
      reason := .claimed })

def leaseChosen (queuedDelta : ℤ) (selection : Selection) (chosen : List Chosen)
    (state : Coordinator) : Option (Coordinator × ClaimReply) :=
  if chosen.isEmpty then
    some (recordEmpty (emptyReason state queuedDelta selection) queuedDelta state)
  else
    (leaseLanes calendar limits catalog call state chosen).map fun lanes =>
      if lanes.leased.isEmpty then recordEmpty .dispatchWindowCapacity queuedDelta state
      else recordClaimed limits call queuedDelta lanes state

def dispatchJobs (bundleJobLimit : Nat) (queuedDelta : ℤ) (state : Coordinator) :
    Option (Coordinator × ClaimReply) :=
  let touched := touchLedgers catalog call state
  let selection := selectJobs calendar limits catalog call touched bundleJobLimit
  (selection.oversize.foldlM (failOversizeJob catalog call) touched.tables).bind fun tables =>
    leaseChosen calendar limits catalog call (queuedDelta - selection.oversize.length) selection
      (drainPass limits catalog touched bundleJobLimit selection) { touched with tables := tables }

def claimWithin (bundleJobLimit : Nat) (queuedDelta : ℤ) (state : Coordinator) :
    Option (Coordinator × ClaimReply) :=
  if limits.maxActiveBundles ≤ state.bundles.length then
    some (recordEmpty .activeBundleLimit queuedDelta state)
  else if limits.maxInFlightLlmCalls ≤ (state.bundles.values.map Bundle.activeCallCount).sum then
    some (recordEmpty .inFlightCallLimit queuedDelta state)
  else dispatchJobs calendar limits catalog call bundleJobLimit queuedDelta state

/-- Reconcile, unless the day's rows are nearly spent, and claim. -/
def reconcileAndClaim (begun : Coordinator) (reaped : Nat) (state : Coordinator) :
    Option (Coordinator × ClaimReply) :=
  let reconciled :=
    if call.rowsWrittenToday < limits.enqueueRowStop then
      reconcileUnroutableJobs limits catalog call (reconcileRowStop limits begun) state
    else some (state, 0)
  reconciled.bind fun (state, failed) =>
    claimWithin calendar limits catalog call (limits.bundleJobLimit begun)
      ((reaped : ℤ) - (failed : ℤ)) state

def claimDispatchWindow (state : Coordinator) : Option (Coordinator × ClaimReply) :=
  if call.paused then some (state, { reason := .dispatchPaused })
  else
    let begun := state.ensureQueuedJobCounter.rollUtcDayIfNeeded call.now
    if claimBraked limits call begun then some (begun, { reason := .dailyRowBudget })
    else if limits.maxBundlesPerUtcDay ≤ begun.scheduler.bundleCountToday then
      some (recordEmpty .dailyBundleLimit 0 begun)
    else if limits.leasesRemaining begun = 0 then some (recordEmpty .dailyLeaseLimit 0 begun)
    else
      let (recovered, reaped) := begun.recoverIfDue limits catalog.lanes call.now
      reconcileAndClaim calendar limits catalog call begun reaped recovered

end

end CityPods.Dispatch
