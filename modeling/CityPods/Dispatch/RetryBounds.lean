import Mathlib.Algebra.Order.BigOperators.Group.List
import CityPods.Dispatch.Eligibility
import CityPods.Dispatch.Operations
import CityPods.Dispatch.Reserves

/-! # Bounded retries

A requeue spends a job's transient budget, or takes something from the route that
the job was leased to: its size, its quota, or one of two response deadlines.
-/

namespace CityPods.Dispatch

open Foundation

/-! ## What a job has left -/

section

variable (config : Config) (routeIds : List String) (job : JobRow)

def largestCeiling : Nat :=
  backupAfterAttempts job + max config.max5xxRetries
    (max config.maxUpstreamCapacityRetries config.maxSingleModelOutputBudgetRetries)

def timeoutsOn (routeId : String) : Nat :=
  min 2 (((job.responseTimeoutRoutes.getD []).get? routeId).getD 0)

def routeCredit (routeId : String) : Nat :=
  (if routeId ∈ job.sizeExcludedRoutes.getD [] then 0 else 1) +
    (if routeId ∈ job.quotaExcludedRoutes.getD [] then 0 else 1) + (2 - timeoutsOn job routeId)

def retriesLeft : Nat :=
  (largestCeiling config job - job.transientRetryCount) + (routeIds.map (routeCredit job)).sum

/-- The columns that retries spend, and the policy that sets the budgets. -/
structure JobRow.SameBudget (other : JobRow) : Prop where
  policy : job.policy = other.policy
  transient : job.transientRetryCount = other.transientRetryCount
  size : job.sizeExcludedRoutes = other.sizeExcludedRoutes
  quota : job.quotaExcludedRoutes = other.quotaExcludedRoutes
  timeouts : job.responseTimeoutRoutes = other.responseTimeoutRoutes

end

def JobOutcome.row : JobOutcome → JobRow
  | .requeue job models => job.released.inQueue models
  | .settle after => after

section

variable {config : Config} {routeIds : List String} {job other : JobRow}

theorem routeCredit_le (routeId : String) : routeCredit job routeId ≤ 4 := by
  unfold routeCredit
  split <;> split <;> omega

theorem retriesLeft_le :
    retriesLeft config routeIds job ≤ largestCeiling config job + 4 * routeIds.length := by
  have credits : (routeIds.map (routeCredit job)).sum ≤ (routeIds.map (routeCredit job)).length • 4 :=
    List.sum_le_card_nsmul _ 4 fun credit member => by
      obtain ⟨routeId, _, rfl⟩ := List.mem_map.mp member
      exact routeCredit_le routeId
  rw [List.length_map, Nat.nsmul_eq_mul] at credits
  unfold retriesLeft
  omega

theorem largestCeiling_congr (policy : job.policy = other.policy) :
    largestCeiling config job = largestCeiling config other := by
  unfold largestCeiling backupAfterAttempts
  rw [policy]

theorem JobRow.SameBudget.retriesLeft_eq (same : job.SameBudget other) :
    retriesLeft config routeIds job = retriesLeft config routeIds other := by
  have credit : routeCredit job = routeCredit other := by
    funext routeId
    rw [routeCredit, routeCredit, timeoutsOn, timeoutsOn, same.size, same.quota, same.timeouts]
  rw [retriesLeft, retriesLeft, largestCeiling_congr same.policy, same.transient, credit]

/-- A claim takes nothing of a job's budget. -/
theorem JobRow.sameBudget_leasedOn (job : JobRow) (routeId : String) (entry : LeaseEntry)
    (leaseToken : String) (reservation : ℚ) (charged : RouteLedger) (now : ℚ) :
    (job.leasedOn routeId entry leaseToken reservation charged now).SameBudget job :=
  ⟨rfl, rfl, rfl, rfl, rfl⟩

theorem sameBudget_countedJob (job : JobRow) (result : CallResult) :
    (countedJob job result).SameBudget job := by
  unfold countedJob
  split <;> exact ⟨rfl, rfl, rfl, rfl, rfl⟩

/-! ## What a requeue spends -/

variable {catalog : CompletionCatalog} {now : ℚ} {row : JobRow} {result : CallResult}
  {estimates : Estimates} {routes : Dict String RouteLedger} {routeId : String}

theorem timeouts_filter_le (counts : Dict String Nat) (routeId : String) :
    (Dict.get? counts routeId).getD 0 ≤
      (Dict.get? (counts.filter fun entry => decide (0 < entry.2)) routeId).getD 0 := by
  induction counts with
  | nil => exact le_rfl
  | cons entry rest induction =>
      obtain ⟨key, count⟩ := entry
      by_cases positive : 0 < count
      · rw [List.filter_cons_of_pos (by simpa using positive), Dict.get?_cons, Dict.get?_cons]
        split
        · exact le_rfl
        · exact induction
      · rw [List.filter_cons_of_neg (by simpa using positive), Dict.get?_cons]
        split
        · rw [Option.getD_some]
          omega
        · exact induction

theorem timeoutsOn_mono (other : String) :
    timeoutsOn job other ≤ timeoutsOn (excludedJob catalog job result) other := by
  show timeoutsOn job other ≤ min 2 (((nextResponseTimeoutRoutes job result).getD []).get? other |>.getD 0)
  unfold nextResponseTimeoutRoutes
  split
  · next timedOut =>
    rw [Option.getD_some, nextTimeoutCounts, if_pos timedOut, Dict.get?_set]
    split
    · next same =>
      rw [Option.getD_some, nextRouteTimeoutCount, timeoutsOn, same]
      omega
    · have kept := timeouts_filter_le (job.responseTimeoutRoutes.getD []) other
      rw [responseTimeoutCounts, Dict.get?_mapValues]
      unfold timeoutsOn
      cases found : Dict.get? ((job.responseTimeoutRoutes.getD []).filter fun entry =>
          decide (0 < entry.2)) other with
      | none =>
          rw [found] at kept
          simpa using kept
      | some count =>
          rw [found] at kept
          simp only [Option.map_some, Option.getD_some] at kept ⊢
          omega
  · exact le_rfl

theorem subset_excluding (excluded : List String) (leased : Option String) :
    excluded ⊆ (excluded ++ leased.toList).eraseDups :=
  fun _ member => List.mem_eraseDups.mpr (List.mem_append_left _ member)

theorem routeCredit_mono (catalog : CompletionCatalog) (job : JobRow) (result : CallResult)
    (other : String) :
    routeCredit (excludedJob catalog job result) other ≤ routeCredit job other := by
  have size (member : other ∈ job.sizeExcludedRoutes.getD []) :
      other ∈ (nextSizeExcludedRoutes job result).getD [] := by
    unfold nextSizeExcludedRoutes
    split
    · exact subset_excluding _ _ member
    · exact member
  have quota (member : other ∈ job.quotaExcludedRoutes.getD []) :
      other ∈ (nextQuotaExcludedRoutes catalog job result).getD [] := by
    unfold nextQuotaExcludedRoutes
    split
    · exact subset_excluding _ _ member
    · exact member
  have timeouts : timeoutsOn job other ≤ timeoutsOn (excludedJob catalog job result) other :=
    timeoutsOn_mono other
  show (if other ∈ (nextSizeExcludedRoutes job result).getD [] then 0 else 1) +
      (if other ∈ (nextQuotaExcludedRoutes catalog job result).getD [] then 0 else 1) +
        (2 - timeoutsOn (excludedJob catalog job result) other) ≤ routeCredit job other
  unfold routeCredit
  split_ifs <;> first | omega | (exfalso; tauto)

/-- The route may still be taken: nothing excludes it for the job. -/
structure JobRow.Open (job : JobRow) (routeId : String) : Prop where
  size : routeId ∉ job.sizeExcludedRoutes.getD []
  quota : routeId ∉ job.quotaExcludedRoutes.getD []
  timeouts : timeoutsOn job routeId < 2

theorem routeCredit_spent (leased : job.leaseRouteId = some routeId) (available : job.Open routeId)
    (excludes : isSizeRejection result = true ∨ isQuotaRejection catalog job result = true ∨
      isResponseTimeout job result = true) :
    routeCredit (excludedJob catalog job result) routeId < routeCredit job routeId := by
  have added (excluded : List String) :
      routeId ∈ (excluded ++ job.leaseRouteId.toList).eraseDups := by
    rw [leased]
    simp
  have timeouts : timeoutsOn job routeId ≤ timeoutsOn (excludedJob catalog job result) routeId :=
    timeoutsOn_mono routeId
  have before : routeCredit job routeId = 1 + 1 + (2 - timeoutsOn job routeId) := by
    rw [routeCredit, if_neg available.size, if_neg available.quota]
  have within := available.timeouts
  show (if routeId ∈ (nextSizeExcludedRoutes job result).getD [] then 0 else 1) +
      (if routeId ∈ (nextQuotaExcludedRoutes catalog job result).getD [] then 0 else 1) +
        (2 - timeoutsOn (excludedJob catalog job result) routeId) < routeCredit job routeId
  rw [before]
  rcases excludes with size | quota | timedOut
  · have inside : routeId ∈ (nextSizeExcludedRoutes job result).getD [] := by
      rw [nextSizeExcludedRoutes, if_pos size]
      exact added _
    rw [if_pos inside]
    split <;> omega
  · have inside : routeId ∈ (nextQuotaExcludedRoutes catalog job result).getD [] := by
      rw [nextQuotaExcludedRoutes, if_pos quota]
      exact added _
    rw [if_pos inside]
    split <;> omega
  · have counted : timeoutsOn (excludedJob catalog job result) routeId =
        timeoutsOn job routeId + 1 := by
      have again : nextRouteTimeoutCount job = timeoutsOn job routeId + 1 := by
        unfold nextRouteTimeoutCount
        unfold timeoutsOn at within ⊢
        rw [leased, Option.getD_some]
        omega
      show min 2 (((nextResponseTimeoutRoutes job result).getD []).get? routeId |>.getD 0) = _
      rw [nextResponseTimeoutRoutes, if_pos timedOut, Option.getD_some, nextTimeoutCounts,
        if_pos timedOut, leased, Option.getD_some, Dict.get?_set_same, Option.getD_some, again]
      omega
    rw [counted]
    split <;> split <;> omega

theorem backup_le_largestCeiling {base : Nat} (within : base ≤ max config.max5xxRetries
    (max config.maxUpstreamCapacityRetries config.maxSingleModelOutputBudgetRetries)) :
    retryCeiling job base ≤ largestCeiling config job := by
  unfold retryCeiling largestCeiling
  split <;> omega

theorem transient_lt (retries : retriesTransient config job result = true) :
    job.transientRetryCount < largestCeiling config job := by
  have transient : retryCeiling job config.max5xxRetries ≤ largestCeiling config job :=
    backup_le_largestCeiling (Nat.le_max_left _ _)
  have upstream : retryCeiling job config.maxUpstreamCapacityRetries ≤ largestCeiling config job :=
    backup_le_largestCeiling (by omega)
  have output : outputBudgetCeiling config job ≤ largestCeiling config job := by
    unfold outputBudgetCeiling
    split
    · unfold largestCeiling
      omega
    · exact upstream
  unfold retriesTransient at retries
  simp only [Bool.decide_or, Bool.or_eq_true, decide_eq_true_eq] at retries
  rcases retries with ⟨_, left⟩ | ⟨_, left⟩ | ⟨_, left⟩ | ⟨_, left⟩ | ⟨_, _, left⟩ | ⟨_, left⟩ | ⟨_, left⟩ <;>
    omega

theorem requeuedOutcome_spends (leased : job.leaseRouteId = some routeId)
    (listed : routeId ∈ routeIds) (available : job.Open routeId)
    (requeues : shouldRequeue config catalog estimates routes job result = true) :
    (requeuedOutcome catalog now job result).row.policy = job.policy ∧
      retriesLeft config routeIds (requeuedOutcome catalog now job result).row <
        retriesLeft config routeIds job := by
  refine ⟨rfl, ?_⟩
  have ceiling : largestCeiling config (requeuedOutcome catalog now job result).row =
      largestCeiling config job := largestCeiling_congr rfl
  rw [retriesLeft, retriesLeft, ceiling]
  show largestCeiling config job - (if _ then _ else _) +
    (routeIds.map (routeCredit (excludedJob catalog job result))).sum < _
  have credits : (routeIds.map (routeCredit (excludedJob catalog job result))).sum ≤
      (routeIds.map (routeCredit job)).sum :=
    List.sum_le_sum fun other _ => routeCredit_mono catalog job result other
  by_cases excludes : isSizeRejection result = true ∨ isQuotaRejection catalog job result = true ∨
      isResponseTimeout job result = true
  · have spent : (routeIds.map (routeCredit (excludedJob catalog job result))).sum <
        (routeIds.map (routeCredit job)).sum :=
      List.sum_lt_sum _ _ (fun other _ => routeCredit_mono catalog job result other)
        ⟨routeId, listed, routeCredit_spent leased available excludes⟩
    rw [if_pos excludes]
    omega
  · obtain ⟨size, quota, timedOut⟩ := by
      simpa only [not_or] using excludes
    rw [shouldRequeue, if_neg size, if_neg quota, if_neg timedOut] at requeues
    have below := transient_lt requeues
    rw [if_neg excludes]
    omega

/-- Where a started call comes back to the queue, its job has less left. -/
theorem jobOutcome_spends {outcome : JobOutcome} (leased : row.leaseRouteId = some routeId)
    (listed : routeId ∈ routeIds) (available : row.Open routeId)
    (timely : result.outcome ≠ .deferredLate)
    (decided : jobOutcome config catalog now estimates routes row result = some outcome)
    (queued : outcome.row.state = .queued) :
    outcome.row.policy = row.policy ∧
      retriesLeft config routeIds outcome.row < retriesLeft config routeIds row := by
  have same := sameBudget_countedJob row result
  have route : (countedJob row result).leaseRouteId = some routeId := by
    unfold countedJob
    split <;> exact leased
  have opened : (countedJob row result).Open routeId := by
    refine ⟨same.size ▸ available.size, same.quota ▸ available.quota, ?_⟩
    rw [timeoutsOn, same.timeouts]
    exact available.timeouts
  have requeued (requeues : shouldRequeue config catalog estimates routes (countedJob row result)
      result = true) :
      (requeuedOutcome catalog now (countedJob row result) result).row.policy = row.policy ∧
        retriesLeft config routeIds (requeuedOutcome catalog now (countedJob row result) result).row <
          retriesLeft config routeIds row := by
    rw [← same.policy, ← same.retriesLeft_eq]
    exact requeuedOutcome_spends route listed opened requeues
  unfold jobOutcome at decided
  dsimp only at decided
  cases reported : result.outcome with
  | unrecognized name =>
      rw [reported] at decided
      cases decided
  | deferredLate => exact absurd reported timely
  | success =>
      rw [reported] at decided
      dsimp only at decided
      split at decided <;> cases decided
      · next requeues => exact requeued requeues
      · cases queued
  | retryableError | terminalError =>
      rw [reported] at decided
      dsimp only at decided
      split at decided <;> cases decided
      · next requeues => exact requeued requeues
      · cases queued

/-! ## What a settlement leaves -/

/-- What one of the reports makes of the leased row. -/
def SettledBy (config : Config) (catalog : CompletionCatalog) (now : ℚ) (reports : List Report)
    (row after : JobRow) : Prop :=
  ∃ estimates routes, ∃ report ∈ reports, ∃ outcome,
    report.result.jobId = row.id ∧
      jobOutcome config catalog now estimates routes row report.result = some outcome ∧
        after = outcome.row

theorem get?_apply (tables : JobTables) (outcome : JobOutcome) (jobId : String) :
    (tables.apply outcome).jobs.get? jobId =
      if outcome.row.id = jobId then some outcome.row else tables.jobs.get? jobId := by
  cases outcome with
  | requeue job models => exact Dict.get?_set _ _ _ _
  | settle after => exact Dict.get?_set _ _ _ _

variable {outcome : JobOutcome}

theorem jobOutcome_id
    (decided : jobOutcome config catalog now estimates routes row result = some outcome) :
    outcome.row.id = row.id := by
  cases jobOutcome_moves decided with
  | requeue named _ => exact named
  | settle named _ => exact named

theorem jobOutcome_state
    (decided : jobOutcome config catalog now estimates routes row result = some outcome) :
    outcome.row.state = .queued ∨ outcome.row.state = .completed ∨ outcome.row.state = .failed := by
  cases jobOutcome_moves decided with
  | requeue _ _ => exact .inl rfl
  | settle _ terminal => exact .inr terminal

def Settling (config : Config) (catalog : CompletionCatalog) (now : ℚ) (reports : List Report)
    (row : JobRow) (tables : JobTables) : Prop :=
  tables.jobs.get? row.id = some row ∨
    ∃ after, tables.jobs.get? row.id = some after ∧ after.state ≠ .leased ∧
      SettledBy config catalog now reports row after

variable {reports : List Report}

theorem Settling.mono {more : List Report} {tables : JobTables} (among : reports ⊆ more)
    (settling : Settling config catalog now reports row tables) :
    Settling config catalog now more row tables := by
  rcases settling with unmoved | ⟨after, found, idle, estimates, routes, report, member, settled⟩
  · exact .inl unmoved
  · exact .inr ⟨after, found, idle, estimates, routes, report, among member, settled⟩

theorem settleReport_jobs (other : JobRow) (report : Report) (progress : CompletionProgress) :
    (settleReport config catalog now other report progress).tables = progress.tables ∨
      ∃ estimates routes outcome,
        jobOutcome config catalog now estimates routes other report.result = some outcome ∧
          (settleReport config catalog now other report progress).tables =
            progress.tables.apply outcome := by
  unfold settleReport
  dsimp only
  split
  · exact .inl rfl
  · next outcome decided =>
    refine .inr ⟨_, _, outcome, decided, ?_⟩
    exact congrArg Tallied.tables (settleRoute_counted _ report _)

variable {progress : CompletionProgress}

theorem completeReport_settling {before : List Report} {report : Report}
    (coherent : progress.tables.Coherent)
    (settling : Settling config catalog now before row progress.tables) :
    Settling config catalog now (before ++ [report]) row
      (completeReport config catalog now progress report).tables := by
  have onward := settling.mono (List.subset_append_left before [report])
  unfold completeReport
  split
  · exact onward
  · next other found =>
    split
    · next live =>
      rcases settleReport_jobs other report progress with
        unmoved | ⟨estimates, routes, outcome, decided, applied⟩
      · rwa [unmoved]
      · have named := coherent.named _ other found
        have moved := jobOutcome_id decided
        rw [applied]
        unfold Settling
        rw [get?_apply, moved, named]
        by_cases own : report.result.jobId = row.id
        · rw [if_pos own]
          rw [own] at found
          rcases settling with unmoved | ⟨after, settled, idle, _⟩
          · rw [unmoved, Option.some.injEq] at found
            subst found
            refine .inr ⟨_, rfl, ?_, estimates, routes, report,
              List.mem_append_right _ List.mem_cons_self, outcome, own, decided, rfl⟩
            rcases jobOutcome_state decided with state | state | state <;> rw [state] <;> decide
          · rw [settled, Option.some.injEq] at found
            subst found
            exact absurd live.1 idle
        · rw [if_neg own]
          exact onward
    · exact onward

theorem completeReports_settling
    (coherent : progress.tables.Coherent) (found : progress.tables.jobs.get? row.id = some row) :
    Settling config catalog now reports row
      (completeReports config catalog now reports progress).tables := by
  have flushed (settled : CompletionProgress) :
      (flushAll catalog now settled).tables = settled.tables :=
    congrArg Tallied.tables (flushAll_counted settled)
  rw [completeReports, flushed]
  have general (later before : List Report) (middle : CompletionProgress)
      (coherent : middle.tables.Coherent)
      (settling : Settling config catalog now before row middle.tables) :
      Settling config catalog now (before ++ later) row
        (later.foldl (completeReport config catalog now) middle).tables := by
    induction later generalizing before middle with
    | nil => rwa [List.append_nil]
    | cons report rest induction =>
        have step := induction (before ++ [report]) _
          ((completeReport_moves report coherent).coherent coherent)
          (completeReport_settling coherent settling)
        rwa [List.append_assoc, List.singleton_append] at step
  exact general reports [] progress coherent (.inl found)

theorem completeBatch_settling {bundleId executionToken : String}
    {state : Coordinator} (coherent : state.tables.Coherent)
    (found : state.tables.jobs.get? row.id = some row) :
    Settling config catalog now reports row
      (completeBatch config catalog now bundleId executionToken reports state).tables := by
  have tables : state.ensureQueuedJobCounter.tables = state.tables := by
    unfold Coordinator.ensureQueuedJobCounter
    split <;> rfl
  unfold completeBatch
  split
  · show Settling config catalog now reports row (completeReports config catalog now reports
      (completionStart state.ensureQueuedJobCounter)).tables
    refine completeReports_settling ?_ ?_
    · show state.ensureQueuedJobCounter.tables.Coherent
      rwa [tables]
    · show state.ensureQueuedJobCounter.tables.jobs.get? row.id = some row
      rwa [tables]
  · exact .inl found

end

/-! ## Lease after lease -/

/-- A lease of a job: the catalog of the claim, the row that the claim read and the
one that it left, and the batch that settles it. -/
structure RetryTurn where
  claimed : RoutingCatalog
  policy : RoutingPolicy
  sizingFor : String → StoredRoute → Sizing
  job : JobRow
  row : JobRow
  state : Coordinator
  now : ℚ
  bundleId : String
  executionToken : String
  reports : List Report

namespace RetryTurn

variable (config : Config) (completion : CompletionCatalog) (catalog : RoutingCatalog)
  (turn : RetryTurn)

def after : Option JobRow :=
  (completeBatch config completion turn.now turn.bundleId turn.executionToken turn.reports
    turn.state).tables.jobs.get? turn.row.id

def requeues : Bool := (turn.after config completion).any fun row => decide (row.state = .queued)

/-- The job was leased to one of its routes, in the catalog or, where some are
paused, in a part of it, and the batch settles the lease. -/
structure Serves (job : JobRow) : Prop where
  within : turn.claimed.routesById.keys ⊆ catalog.routesById.keys
  read : turn.job.SameBudget job
  leased : turn.row.SameBudget turn.job
  taken : ∃ routeId, turn.row.leaseRouteId = some routeId ∧
    routeId ∈ (routesEligibleFor turn.claimed turn.policy turn.job turn.sizingFor catalog).map
      EligibleRoute.routeId
  coherent : turn.state.tables.Coherent
  found : turn.state.tables.jobs.get? turn.row.id = some turn.row
  settles : turn.after config completion ≠ some turn.row

/-- No report of the job says that its call came too late. -/
def Timely : Prop :=
  ∀ report ∈ turn.reports, report.result.jobId = turn.row.id → report.result.outcome ≠ .deferredLate

end RetryTurn

/-- Consecutive leases of a job: each but the last comes back to the queue. -/
inductive Retried (config : Config) (completion : CompletionCatalog) (catalog : RoutingCatalog) :
    JobRow → List RetryTurn → Prop
  | nil (job : JobRow) : Retried config completion catalog job []
  | cons {job row : JobRow} {turn : RetryTurn} {rest : List RetryTurn}
      (serves : turn.Serves config completion catalog job)
      (settled : turn.after config completion = some row)
      (again : rest ≠ [] → row.state = .queued)
      (later : Retried config completion catalog row rest) :
      Retried config completion catalog job (turn :: rest)

section

variable {config : Config} {completion : CompletionCatalog} {catalog : RoutingCatalog}
  {job row : JobRow} {turn : RetryTurn} {turns : List RetryTurn}

theorem open_of_eligible {structural claimed : RoutingCatalog} {policy : RoutingPolicy}
    {sizingFor : String → StoredRoute → Sizing} {routeId : String}
    (eligible : routeId ∈ (routesEligibleFor claimed policy job sizingFor structural).map
      EligibleRoute.routeId) :
    routeId ∈ claimed.routesById.keys ∧ job.Open routeId := by
  obtain ⟨_, model, found⟩ := mem_routesEligibleFor.mp eligible
  unfold eligibleRoute at found
  split at found
  · next allowed =>
    split at found
    · cases found
    · next route stored =>
      have left := allowed.2
      simp only [excludesRoute, decide_eq_true_eq, not_or] at left
      obtain ⟨size, quota, timedOut⟩ := left
      refine ⟨Dict.get?_isSome_iff_mem_keys.mp (by rw [stored]; rfl), size, quota, ?_⟩
      by_contra exhausted
      have twice : 2 ≤ (Dict.get? (job.responseTimeoutRoutes.getD []) routeId).getD 0 := by
        unfold timeoutsOn at exhausted
        omega
      cases counted : Dict.get? (job.responseTimeoutRoutes.getD []) routeId with
      | none =>
          rw [counted] at twice
          cases twice
      | some count =>
          rw [counted] at twice
          refine timedOut (List.mem_map.mpr ⟨(routeId, count), List.mem_filter.mpr
            ⟨Dict.get?_eq_some_mem counted, ?_⟩, rfl⟩)
          simpa using twice
  · cases found

namespace RetryTurn.Serves

variable (serves : turn.Serves config completion catalog job)

include serves

theorem settledBy (settled : turn.after config completion = some row) :
    SettledBy config completion turn.now turn.reports turn.row row := by
  have settling : Settling config completion turn.now turn.reports turn.row
      (completeBatch config completion turn.now turn.bundleId turn.executionToken turn.reports
        turn.state).tables := completeBatch_settling serves.coherent serves.found
  rcases settling with unmoved | ⟨after, found, _, settledBy⟩
  · exact absurd unmoved serves.settles
  · have same : some after = some row := found.symm.trans settled
    cases same
    exact settledBy

theorem state (settled : turn.after config completion = some row) :
    row.state = .queued ∨ row.state = .completed ∨ row.state = .failed := by
  obtain ⟨_, _, _, _, _, _, decided, rfl⟩ := serves.settledBy settled
  exact jobOutcome_state decided

/-- A job that comes back to the queue has less left than before. -/
theorem spends (timely : turn.Timely) (settled : turn.after config completion = some row)
    (queued : row.state = .queued) :
    row.policy = job.policy ∧ retriesLeft config catalog.routesById.keys row <
      retriesLeft config catalog.routesById.keys job := by
  obtain ⟨routeId, leased, eligible⟩ := serves.taken
  obtain ⟨listed, available⟩ := open_of_eligible eligible
  have opened : turn.row.Open routeId := by
    refine ⟨serves.leased.size ▸ available.size, serves.leased.quota ▸ available.quota, ?_⟩
    rw [timeoutsOn, serves.leased.timeouts]
    exact available.timeouts
  obtain ⟨_, _, report, member, outcome, named, decided, rfl⟩ := serves.settledBy settled
  rw [← serves.read.policy, ← serves.read.retriesLeft_eq, ← serves.leased.policy,
    ← serves.leased.retriesLeft_eq]
  exact jobOutcome_spends leased (serves.within listed) opened (timely report member named) decided
    queued

end RetryTurn.Serves

theorem Retried.requeues_le (retried : Retried config completion catalog job turns)
    (timely : ∀ turn ∈ turns, turn.Timely) :
    turns.countP (RetryTurn.requeues config completion) ≤
      retriesLeft config catalog.routesById.keys job := by
  induction retried with
  | nil => exact Nat.zero_le _
  | @cons job row turn rest serves settled again later induction =>
      have others := induction fun other member => timely other (List.mem_cons_of_mem _ member)
      by_cases requeued : turn.requeues config completion = true
      · have queued : row.state = .queued := by
          rw [RetryTurn.requeues, settled, Option.any_some] at requeued
          simpa using requeued
        have spent := (serves.spends (timely turn List.mem_cons_self) settled queued).2
        rw [List.countP_cons_of_pos requeued]
        omega
      · rw [List.countP_cons_of_neg requeued]
        by_cases last : rest = []
        · rw [last]
          exact Nat.zero_le _
        · rw [RetryTurn.requeues, settled, Option.any_some, again last] at requeued
          exact absurd rfl requeued

end

def oneRouteCatalog : RoutingCatalog where
  modelRoutesMap := [("model", ["route"])]
  routesById := [("route", contextRoute 8192)]

def oneRouteCompletion : CompletionCatalog where
  lanes := oneModelCatalog
  routes := [("route", { provider := "provider" })]
  modelForRouteId _ := some "model"
  canonicalModelName := id
  inputRatio _ _ _ := 1
  calibrate estimates _ _ := estimates
  quotaRoutesLeft _ := 0
  timeoutRoutesLeft _ _ _ := 0
  sizeRoutesLeft _ _ _ := 0
  sizedRoutes _ := []

def waitingJob : JobRow :=
  { longJob with inputTokenEstimate := 100, maxOutputTokenEstimate := 100,
                 queueModels := some ["model"] }

def routeLease : LeaseEntry := ⟨"bundle", "route", 5000⟩

def leasedJobRow : JobRow := waitingJob.leasedOn "route" routeLease "lease" 0 {} 1000

def leasedTables : Option JobTables :=
  (emptyCoordinator.tables.insertQueued waitingJob ["model"]).bind fun tables =>
    tables.lease waitingJob leasedJobRow routeLease

theorem leasedTables_isSome : leasedTables.isSome = true := by decide

theorem leasedTables_coherent : (leasedTables.get leasedTables_isSome).Coherent := by
  have empty : emptyCoordinator.tables.Coherent :=
    (Coordinator.Sound.of_unused (.legacy none (.inl rfl) 0)).coherent
  obtain ⟨tables, inserted, leased⟩ :=
    Option.bind_eq_some_iff.mp (Option.some_get leasedTables_isSome).symm
  have filed := empty.insertQueued (by simp) inserted
  have coherent := filed.2.coherent empty
  have found : tables.jobs.get? waitingJob.id = some waitingJob := by
    rw [filed.2.jobs]
    exact Dict.get?_set_same _ _ _
  have writes : JobTables.Writes leasedJobRow tables (leasedTables.get leasedTables_isSome) :=
    coherent.lease found rfl rfl rfl rfl rfl leased
  exact writes.coherent coherent

def leasedCoordinator : Coordinator :=
  { emptyCoordinator with
    tables := leasedTables.get leasedTables_isSome
    bundles := [("bundle", ⟨"execution", 5000, 1, 5000, 1000⟩)] }

theorem leasedCoordinator_found :
    leasedCoordinator.tables.jobs.get? "job" = some leasedJobRow := by
  decide

def oneModelPolicy : RoutingPolicy where
  allowedModels := some [⟨"model", true⟩]

theorem waitingJob_eligible :
    "route" ∈ (routesEligibleFor oneRouteCatalog oneModelPolicy waitingJob (fun _ _ => {})
      oneRouteCatalog).map EligibleRoute.routeId := by
  decide +kernel

def turnWith (outcome : Outcome) (status : Option Nat) : RetryTurn where
  claimed := oneRouteCatalog
  policy := oneModelPolicy
  sizingFor _ _ := {}
  job := waitingJob
  row := leasedJobRow
  state := leasedCoordinator
  now := 2000
  bundleId := "bundle"
  executionToken := "execution"
  reports :=
    [{ result := { jobId := "job", leaseToken := "lease", outcome := outcome,
                   providerStatusCode := status, actualStartAt := some 1500 } }]

/-- The row that a requeue of the first lease leaves. -/
def requeuedRow (attempts retries : Nat) : JobRow :=
  { waitingJob with attempts := attempts, transientRetryCount := retries, updatedAt := 2000 }

def noRetries : Config where
  max5xxRetries := 0
  maxUpstreamCapacityRetries := 0
  maxSingleModelOutputBudgetRetries := 0

theorem failedTurn_after : (turnWith .retryableError (some 500)).after {} oneRouteCompletion =
    some (requeuedRow 1 1) := by
  decide

theorem deferredTurn_after : (turnWith .deferredLate none).after noRetries oneRouteCompletion =
    some (requeuedRow 1 0) := by
  decide

variable {job : JobRow}

theorem turnWith_serves {config : Config} {outcome : Outcome} {status : Option Nat}
    {row : JobRow} (read : waitingJob.SameBudget job)
    (settled : (turnWith outcome status).after config oneRouteCompletion = some row)
    (moved : row.state = .queued) :
    (turnWith outcome status).Serves config oneRouteCompletion oneRouteCatalog job where
  within := List.Subset.refl _
  read := read
  leased := JobRow.sameBudget_leasedOn _ _ _ _ _ _ _
  taken := ⟨"route", rfl, waitingJob_eligible⟩
  coherent := leasedTables_coherent
  found := leasedCoordinator_found
  settles := by
    rw [settled]
    rintro ⟨⟩
    cases moved

theorem failedTurn_retried : Retried {} oneRouteCompletion oneRouteCatalog waitingJob
    [turnWith .retryableError (some 500)] :=
  .cons (turnWith_serves ⟨rfl, rfl, rfl, rfl, rfl⟩ failedTurn_after rfl) failedTurn_after
    (fun more => absurd rfl more) (.nil _)

theorem deferredTurns_retried (count : Nat) (read : waitingJob.SameBudget job) :
    Retried noRetries oneRouteCompletion oneRouteCatalog job
      (List.replicate count (turnWith .deferredLate none)) := by
  induction count generalizing job with
  | zero => exact .nil job
  | succ count induction =>
      exact .cons (turnWith_serves read deferredTurn_after rfl) deferredTurn_after (fun _ => rfl)
        (induction ⟨rfl, rfl, rfl, rfl, rfl⟩)

end CityPods.Dispatch
