import CityPods.Dispatch.Claims

/-! # Configuration of the worker

The settings of a deployment, the checks that they pass before the worker starts,
and the limits that the coordinator reads off them for its claims.
-/

namespace CityPods.Dispatch

open Foundation

/-! ## Settings -/

/-- A lane's budgets as the deployment states them. -/
structure ReservationSetting where
  reservedWriteUnits : Option ℚ := none
  dailyWriteUnits : Option ℚ := none

/-- The lane budgets that are in force: the compiled ones, or an operator's override. -/
inductive ReservationSettings
  | lanes (settings : Dict String ReservationSetting)
  | notJson
  | notAnObject

/-- The numeric settings of the environment, where they are set. -/
structure WorkerConfig where
  dispatchWindowSeconds : Option ℚ := none
  maxResponseSeconds : Option ℚ := none
  finalizationReserveSeconds : Option ℚ := none
  leaseDurationSeconds : Option ℚ := none
  cronExecutionLimitSeconds : Option ℚ := none
  cronTickSeconds : Option ℚ := none
  maxBundlesPerUtcDay : Option ℚ := none
  maxBundleJobs : Option ℚ := none
  maxJobsPerModelClaim : Option ℚ := none
  maxConcurrentRouteLanes : Option ℚ := none
  maxJobsPerRoutePerBundle : Option ℚ := none
  maxActiveBundles : Option ℚ := none
  maxInFlightLlmCalls : Option ℚ := none
  maxLeasesPerUtcDay : Option ℚ := none
  maxCandidateLookahead : Option ℚ := none
  maxUnroutableReconcilePerTick : Option ℚ := none
  estimateMargin : Option ℚ := none
  maxJobsPerUtcDay : Option ℚ := none
  maxIngressWriteUnitsPerUtcDay : Option ℚ := none
  maxQueuedJobs : Option ℚ := none
  max5xxRetries : Option ℚ := none
  max5xxBackoffSeconds : Option ℚ := none
  recoveryIntervalMinutes : Option ℚ := none
  doRowsEnqueueStop : Option ℚ := none
  doRowsClaimStop : Option ℚ := none
  doRowsOptionalStop : Option ℚ := none
  doRowsAccountReserve : Option ℚ := none
  estimatedCallDurationCeilingSeconds : Option ℚ := none
  attemptRetentionDays : Option ℚ := none
  maxAttemptPrunePerTick : Option ℚ := none
  purgeBatchLimit : Option ℚ := none
  cleanupIntervalMinutes : Option ℚ := none
  ingressReservations : ReservationSettings
  bearerToken : String := ""

def doRowsWrittenPlatformLimit : ℚ := 100000

def doRowsAccountReserve : ℚ := 10000

def rowsPerIngressWriteUnitLegacyIndex : ℚ := 2

def maxInvocationConnections : ℚ := 6

def maxIngressWriteBudget : ℚ := 40000

def setting (configured : Option ℚ) (default : ℚ) : ℚ :=
  match configured with
  | some value => if value = 0 then default else value
  | none => default

def wholeWithin (least greatest value : ℚ) : Bool := value.isInt && least ≤ value && value ≤ greatest

namespace WorkerConfig

variable (config : WorkerConfig)

def dispatchWindow : ℚ := setting config.dispatchWindowSeconds 25

def leaseDuration : ℚ := setting config.leaseDurationSeconds 840

def bundlesPerDay : ℚ := setting config.maxBundlesPerUtcDay 1000

def bundleJobs : ℚ := setting config.maxBundleJobs 4

def jobsPerModelClaim : ℚ := setting config.maxJobsPerModelClaim config.bundleJobs

def jobsPerDay : ℚ := setting config.maxJobsPerUtcDay 5000

def ingressWriteUnits : ℚ := setting config.maxIngressWriteUnitsPerUtcDay (config.jobsPerDay * 4)

def leasesPerDay : ℚ := setting config.maxLeasesPerUtcDay (config.bundlesPerDay * config.bundleJobs)

def enqueueRowStop : ℚ := config.doRowsEnqueueStop.getD 90000

def claimRowStop : ℚ := config.doRowsClaimStop.getD 97000

def optionalRowStop : ℚ := config.doRowsOptionalStop.getD 99000

def accountReserveRows : ℚ := config.doRowsAccountReserve.getD Dispatch.doRowsAccountReserve

def ticksPerDay : ℤ := ⌊86400 / setting config.cronTickSeconds 60⌋

end WorkerConfig

/-! ## Validation -/

/-- Why a configuration is refused. -/
inductive ConfigError
  | recoveryInterval
  | leaseDuration
  | cronExecutionLimit
  | bundlesPerUtcDay
  | jobsPerModelClaim
  | accountReserve
  | rowStops
  | enqueueStopPastReserve
  | ingressPastEnqueueStop
  | queuedJobs
  | leasesPerUtcDay
  | candidateLookahead
  | concurrentRouteLanes
  | serverErrorRetries
  | serverErrorBackoff
  | ingressWriteUnits
  | jobsPerUtcDay
  | reservationsNotJson
  | reservationsNotAnObject
  | reservationsEmpty
  | reservationUnits
  | reservationDaily (purpose : String)
  | reservationsPastBudget
  | callDurationCeiling
  | attemptRetention
  | attemptPrune
  | purgeBatch
  | cleanupInterval
  | subrequests
  | bearerToken
  deriving DecidableEq

structure ConfigCheck where
  fails : Bool
  error : ConfigError

def reservedUnits (entry : String × ReservationSetting) : ℚ := setting entry.2.reservedWriteUnits 0

/-- A lane without a daily ceiling could consume the whole pool. -/
def reservationChecks (entry : String × ReservationSetting) : List ConfigCheck :=
  [⟨!(reservedUnits entry).isInt || reservedUnits entry < 0, .reservationUnits⟩,
    ⟨match entry.2.dailyWriteUnits with
      | some daily => !daily.isInt || daily < reservedUnits entry
      | none => true, .reservationDaily entry.1⟩]

section

variable (config : WorkerConfig)

/-- The checks on the times of a window and on the bundles of a day. -/
def windowChecks : List ConfigCheck :=
  [⟨!wholeWithin 0 1440 (config.recoveryIntervalMinutes.getD 0), .recoveryInterval⟩,
    ⟨config.leaseDuration < config.dispatchWindow + setting config.maxResponseSeconds 720 +
      setting config.finalizationReserveSeconds 90, .leaseDuration⟩,
    ⟨setting config.cronExecutionLimitSeconds 900 ≤ config.leaseDuration, .cronExecutionLimit⟩,
    ⟨config.ticksPerDay ≤ config.bundlesPerDay, .bundlesPerUtcDay⟩,
    ⟨!wholeWithin 1 config.bundleJobs config.jobsPerModelClaim, .jobsPerModelClaim⟩]

def rowBudgetChecks : List ConfigCheck :=
  [⟨!wholeWithin 1 (doRowsWrittenPlatformLimit - 1) config.accountReserveRows, .accountReserve⟩,
    ⟨!(config.enqueueRowStop.isInt && config.claimRowStop.isInt && config.optionalRowStop.isInt) ||
        !(0 < config.enqueueRowStop && config.enqueueRowStop ≤ config.claimRowStop &&
          config.claimRowStop ≤ config.optionalRowStop) ||
        doRowsWrittenPlatformLimit ≤ config.optionalRowStop, .rowStops⟩,
    ⟨doRowsWrittenPlatformLimit - config.accountReserveRows < config.enqueueRowStop,
      .enqueueStopPastReserve⟩,
    ⟨config.enqueueRowStop < rowsPerIngressWriteUnitLegacyIndex * config.ingressWriteUnits,
      .ingressPastEnqueueStop⟩]

/-- The checks on what a day may lease, read, retry and admit. -/
def capacityChecks : List ConfigCheck :=
  [⟨!wholeWithin 1 100000 (config.maxQueuedJobs.getD 20000), .queuedJobs⟩,
    ⟨!wholeWithin 1 (config.bundlesPerDay * config.bundleJobs) config.leasesPerDay,
      .leasesPerUtcDay⟩,
    ⟨!wholeWithin config.jobsPerModelClaim 256 (setting config.maxCandidateLookahead 32),
      .candidateLookahead⟩,
    ⟨maxInvocationConnections < setting config.maxConcurrentRouteLanes 5, .concurrentRouteLanes⟩,
    ⟨!wholeWithin 0 2 (setting config.max5xxRetries 1), .serverErrorRetries⟩,
    ⟨!wholeWithin 60 300 (setting config.max5xxBackoffSeconds 300), .serverErrorBackoff⟩,
    ⟨!wholeWithin 1 maxIngressWriteBudget config.ingressWriteUnits, .ingressWriteUnits⟩,
    ⟨!wholeWithin 1 20000 config.jobsPerDay, .jobsPerUtcDay⟩]

def reservationsChecks : List ConfigCheck :=
  match config.ingressReservations with
  | .notJson => [⟨true, .reservationsNotJson⟩]
  | .notAnObject => [⟨true, .reservationsNotAnObject⟩]
  | .lanes settings =>
      ⟨settings.isEmpty, .reservationsEmpty⟩ :: settings.flatMap reservationChecks ++
        [⟨config.ingressWriteUnits < (settings.map reservedUnits).sum, .reservationsPastBudget⟩]

def cleanupChecks : List ConfigCheck :=
  let interval := config.cleanupIntervalMinutes.getD 10
  [⟨config.dispatchWindow ≤ setting config.estimatedCallDurationCeilingSeconds 20,
      .callDurationCeiling⟩,
    ⟨config.attemptRetentionDays.any fun days => !days.isInt || days < 1, .attemptRetention⟩,
    ⟨config.maxAttemptPrunePerTick.any fun limit => !limit.isInt || limit < 0, .attemptPrune⟩,
    ⟨config.purgeBatchLimit.any fun limit => !limit.isInt || limit < 0, .purgeBatch⟩,
    ⟨!wholeWithin 1 60 interval || 60 % interval.num ≠ 0, .cleanupInterval⟩,
    ⟨40 < config.purgeBatchLimit.getD 15 * 2 + config.bundleJobs * 2, .subrequests⟩,
    ⟨config.bearerToken.isEmpty, .bearerToken⟩]

/-- Every check, in the order in which they are made. -/
def configChecks : List ConfigCheck :=
  windowChecks config ++ rowBudgetChecks config ++ capacityChecks config ++
    reservationsChecks config ++ cleanupChecks config

def validateConfig : Except ConfigError Unit :=
  match (configChecks config).find? ConfigCheck.fails with
  | some failed => .error failed.error
  | none => .ok ()

end

theorem validateConfig_eq_ok_iff {config : WorkerConfig} :
    validateConfig config = .ok () ↔ ∀ check ∈ configChecks config, check.fails = false := by
  unfold validateConfig
  cases failed : (configChecks config).find? ConfigCheck.fails with
  | some check =>
      refine ⟨fun accepted => (by cases accepted), fun passes => ?_⟩
      have fails := List.find?_some failed
      rw [passes check (List.mem_of_find?_eq_some failed)] at fails
      cases fails
  | none =>
      refine ⟨fun _ check member => ?_, fun _ => rfl⟩
      exact Bool.eq_false_iff.mpr (List.find?_eq_none.mp failed check member)

/-! ## Limits of a claim -/

/-- A setting that is a number and not negative, or its default. -/
def envInt (configured : Option ℚ) (fallback : ℚ) : ℚ :=
  match configured with
  | some value => if 0 ≤ value then value else fallback
  | none => fallback

namespace WorkerConfig

variable (config : WorkerConfig)

def accountRowsStop : ℚ :=
  doRowsWrittenPlatformLimit - envInt config.doRowsAccountReserve Dispatch.doRowsAccountReserve

/-- A model contributes one bundle's worth of jobs, unless it may have a whole number of them. -/
def modelClaimJobs : ℚ :=
  match config.maxJobsPerModelClaim with
  | some jobs => if jobs.isInt ∧ 0 < jobs then jobs else envInt config.maxBundleJobs 4
  | none => envInt config.maxBundleJobs 4

def recoveryIntervalMs : ℚ :=
  let minutes := config.recoveryIntervalMinutes.getD 0
  if wholeWithin 0 1440 minutes then minutes * 60000 else 0

/-- The limits that the coordinator reads for a claim. A count is within a fractional
limit exactly where it is within the next whole number. -/
def claimLimits : ClaimLimits where
  maxBundlesPerUtcDay := ⌈envInt config.maxBundlesPerUtcDay 1000⌉₊
  maxLeasesPerUtcDay := ⌈envInt config.maxLeasesPerUtcDay 7000⌉₊
  maxActiveBundles := ⌈envInt config.maxActiveBundles 2⌉₊
  maxInFlightLlmCalls := ⌈envInt config.maxInFlightLlmCalls 8⌉₊
  maxBundleJobs := ⌈envInt config.maxBundleJobs 4⌉₊
  maxJobsPerModelClaim := ⌈config.modelClaimJobs⌉₊
  maxCandidateLookahead := ⌈envInt config.maxCandidateLookahead 32⌉₊
  maxConcurrentRouteLanes := ⌈envInt config.maxConcurrentRouteLanes 5⌉₊
  maxJobsPerRoutePerBundle := ⌈envInt config.maxJobsPerRoutePerBundle 4⌉₊
  maxUnroutableReconcilePerTick := ⌈envInt config.maxUnroutableReconcilePerTick 20⌉₊
  estimateFloor := envInt config.estimateMargin 0
  callDurationCeilingMs := envInt config.estimatedCallDurationCeilingSeconds 20 * 1000
  leaseDurationMs := envInt config.leaseDurationSeconds 840 * 1000
  recoveryIntervalMs := config.recoveryIntervalMs
  claimRowStop := min (envInt config.doRowsClaimStop 97000) config.accountRowsStop
  accountRowsStop := config.accountRowsStop
  enqueueRowStop := min (envInt config.doRowsEnqueueStop 90000) config.accountRowsStop

end WorkerConfig

/-! ## What acceptance bounds -/

section

variable {config : WorkerConfig}

/-- What the coordinator reads is at most what was checked, or the default. -/
theorem envInt_le_setting (configured : Option ℚ) {default : ℚ} (nonneg : 0 ≤ default) :
    envInt configured default ≤ max (setting configured default) default := by
  cases configured with
  | none => exact le_max_left _ _
  | some value =>
      rcases lt_trichotomy value 0 with negative | rfl | ahead
      · simp only [envInt, if_neg negative.not_ge]
        exact le_max_right _ _
      · exact nonneg.trans (le_max_right _ _)
      · simp only [envInt, setting, if_pos ahead.le, if_neg ahead.ne']
        exact le_max_left _ _

theorem maxConcurrentRouteLanes_le (accepted : validateConfig config = .ok ()) :
    config.claimLimits.maxConcurrentRouteLanes ≤ 6 := by
  have passes := validateConfig_eq_ok_iff.mp accepted
    ⟨maxInvocationConnections < setting config.maxConcurrentRouteLanes 5, .concurrentRouteLanes⟩
    (by simp [configChecks, capacityChecks])
  have bounded : setting config.maxConcurrentRouteLanes 5 ≤ 6 :=
    not_lt.mp (of_decide_eq_false passes)
  refine Nat.ceil_le.mpr ((envInt_le_setting _ (by norm_num)).trans (max_le bounded ?_))
  norm_num

theorem maxBundleJobs_le (accepted : validateConfig config = .ok ()) :
    config.claimLimits.maxBundleJobs ≤ 20 := by
  have passes := validateConfig_eq_ok_iff.mp accepted
  have shared := passes ⟨40 < config.purgeBatchLimit.getD 15 * 2 + config.bundleJobs * 2, .subrequests⟩
    (by simp [configChecks, cleanupChecks])
  have purges := passes ⟨config.purgeBatchLimit.any fun limit => !limit.isInt || limit < 0, .purgeBatch⟩
    (by simp [configChecks, cleanupChecks])
  have nonneg : 0 ≤ config.purgeBatchLimit.getD 15 := by
    cases configured : config.purgeBatchLimit with
    | none => norm_num
    | some limit =>
        rw [configured] at purges
        exact not_lt.mp (of_decide_eq_false (Bool.or_eq_false_iff.mp purges).2)
  have together : config.purgeBatchLimit.getD 15 * 2 + config.bundleJobs * 2 ≤ 40 :=
    not_lt.mp (of_decide_eq_false shared)
  have bounded : config.bundleJobs ≤ 20 := by linarith
  refine Nat.ceil_le.mpr ((envInt_le_setting _ (by norm_num)).trans (max_le bounded ?_))
  norm_num

end

end CityPods.Dispatch
