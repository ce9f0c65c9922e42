import CityPods.Dispatch.JobTables
import CityPods.Dispatch.Settlement

/-! # The coordinator

The whole state of the dispatch coordinator: its job tables, the scheduler row,
the ingress ledger, the active bundles and the route and provider ledgers. An
operation that throws rolls back as a whole.
-/

namespace CityPods.Dispatch

open Foundation

/-- An entry of `active_bundles_json`. -/
structure Bundle where
  executionToken : String
  leaseExpiresAt : ℚ
  activeCallCount : Nat
  dispatchWindowEnd : ℚ
  createdAt : ℚ
  deriving DecidableEq

/-- A place in the scan of the queued jobs by their last update. -/
structure RescueKey where
  updatedAt : ℚ
  id : String
  deriving DecidableEq

/-- A bounded pass of that scan: what it has read, and where it ends. -/
structure RescueCursor where
  after : RescueKey
  through : RescueKey
  deriving DecidableEq

/-- The scheduler's row. -/
structure Scheduler where
  utcDay : ℤ
  jobsIngestedToday : Nat := 0
  ingressWriteUnitsToday : Nat := 0
  bundleCountToday : Nat := 0
  leaseCountToday : Nat := 0
  completedToday : Nat := 0
  failedToday : Nat := 0
  retriedToday : Nat := 0
  queuedJobCount : ℤ := 0
  queuedJobCountInitialized : Bool := true
  lastRecoveryAt : Option ℚ := none
  catalogDigest : Option String := none
  catalogRescueCursor : Option RescueCursor := none
  catalogRescueComplete : Bool := false
  deriving DecidableEq

/-- A row of `ingress_purpose`. -/
structure PurposeUsage where
  jobsIngested : Nat := 0
  writeUnits : Nat := 0
  deriving DecidableEq

/-- The `estimates` table, whose summaries only the calibration reads. -/
abbrev Estimates := Dict String String

structure Coordinator where
  tables : JobTables := {}
  scheduler : Scheduler
  ingressPurpose : Dict ℤ (Dict String PurposeUsage) := []
  bundles : Dict String Bundle := []
  routes : Dict String RouteLedger := []
  providers : Dict String ProviderLedger := []
  estimates : Estimates := []
  deriving DecidableEq

def Coordinator.fresh (queue : QueueIndex) (leases : LeaseRegistry) (utcDay : ℤ) : Coordinator where
  tables := { queue := queue, leases := leases }
  scheduler := { utcDay := utcDay }

def currentUtcDay (now : ℚ) : ℤ := ⌊now / msPerDay⌋

def Scheduler.rollUtcDayIfNeeded (now : ℚ) (scheduler : Scheduler) : Scheduler :=
  if scheduler.utcDay = currentUtcDay now then scheduler
  else
    { scheduler with
      utcDay := currentUtcDay now
      jobsIngestedToday := 0
      ingressWriteUnitsToday := 0
      bundleCountToday := 0
      leaseCountToday := 0
      completedToday := 0
      failedToday := 0
      retriedToday := 0 }

def Coordinator.rollUtcDayIfNeeded (now : ℚ) (state : Coordinator) : Coordinator :=
  { state with scheduler := state.scheduler.rollUtcDayIfNeeded now }

def Coordinator.ensureQueuedJobCounter (state : Coordinator) : Coordinator :=
  if state.scheduler.queuedJobCountInitialized then state
  else
    { state with
      scheduler :=
        { state.scheduler with
          queuedJobCount := state.tables.queuedJobs
          queuedJobCountInitialized := true } }

@[simp] theorem Coordinator.rollUtcDayIfNeeded_tables (now : ℚ) (state : Coordinator) :
    (state.rollUtcDayIfNeeded now).tables = state.tables := rfl

@[simp] theorem Coordinator.ensureQueuedJobCounter_tables (state : Coordinator) :
    state.ensureQueuedJobCounter.tables = state.tables := by
  unfold ensureQueuedJobCounter
  split <;> rfl

@[simp] theorem Scheduler.rollUtcDayIfNeeded_utcDay (now : ℚ) (scheduler : Scheduler) :
    (scheduler.rollUtcDayIfNeeded now).utcDay = currentUtcDay now := by
  unfold rollUtcDayIfNeeded
  split
  · next same =>
    exact same
  · rfl

@[simp] theorem Scheduler.rollUtcDayIfNeeded_queuedJobCount (now : ℚ) (scheduler : Scheduler) :
    (scheduler.rollUtcDayIfNeeded now).queuedJobCount = scheduler.queuedJobCount := by
  unfold rollUtcDayIfNeeded
  split <;> rfl

/-- What the static catalog says of a job: the canonical models with a route it
fits, and what the rules of its lane hold against it. -/
structure LaneCatalog where
  modelsForQueuedJob : JobRow → List String
  purposeForJob : JobRow → String
  modelsOutsideLane : JobRow → String → List String
  routeIdsOutsideModelPool : JobRow → List String
  backupThresholdBelowLaneMinimum : JobRow → String → Bool

/-- The models to index a job under: a sentinel where the catalog has no route. -/
def LaneCatalog.modelsToIndex (catalog : LaneCatalog) (job : JobRow) : List String :=
  match catalog.modelsForQueuedJob job with
  | [] => ["__unroutable__"]
  | model :: rest => model :: rest

theorem LaneCatalog.modelsToIndex_ne_nil (catalog : LaneCatalog) (job : JobRow) :
    catalog.modelsToIndex job ≠ [] := by
  unfold modelsToIndex
  split <;> exact List.cons_ne_nil _ _

/-- The job row, every index row, the purpose ledger and the scheduler. -/
def LaneCatalog.ingressWriteUnitsFor (catalog : LaneCatalog) (job : JobRow) : Nat :=
  3 + (catalog.modelsToIndex job).length

end CityPods.Dispatch
