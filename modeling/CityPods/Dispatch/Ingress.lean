import CityPods.Dispatch.Coordinator
import CityPods.Foundation.Reserve

/-! # Ingress

Admission of submitted jobs: idempotent replay, superseding a stale row, and new
rows against the daily budgets, of which every lane may reserve a part; and the
retry of a completed job under a corrected schema.
-/

namespace CityPods.Dispatch

open Foundation

/-! ## Configuration -/

structure LaneReservation where
  reservedWriteUnits : Nat := 0
  dailyWriteUnits : Option Nat := none
  maxQueuedJobs : Option Nat := none
  deriving DecidableEq

/-- The lanes that may submit jobs, by purpose. -/
structure IngressReservations where
  lanes : Dict String LaneReservation
  nodup : lanes.keys.Nodup

structure IngressConfig where
  maxJobsPerUtcDay : Nat := 5000
  configuredWriteUnits : Option Nat := none
  reservations : IngressReservations
  maxQueuedJobs : Nat
  enqueueRowStop : ℚ

/-- Four units a job stand in for a budget that is not configured. -/
def IngressConfig.maxIngressWriteUnitsPerUtcDay (config : IngressConfig) : Nat :=
  match config.configuredWriteUnits with
  | some units => if 0 < units then units else config.maxJobsPerUtcDay * 4
  | none => config.maxJobsPerUtcDay * 4

def IngressConfig.reserves (config : IngressConfig) : Dict String Nat :=
  config.reservations.lanes.mapValues LaneReservation.reservedWriteUnits

/-- What the storage has billed today, read when the call begins. -/
structure RowBudget where
  rowsWrittenToday : ℚ
  rowsPerIngressWriteUnit : ℚ

/-! ## Borrowing -/

def msUntilRollover (now : ℚ) : ℚ := msPerDay - (now - ⌊now / msPerDay⌋ * msPerDay)

/-- The share of another lane's unspent reservation that may be borrowed. -/
def reservationBorrowFraction (now : ℚ) : ℚ :=
  if msUntilRollover now ≤ 6 * msPerHour then 1
  else if msUntilRollover now ≤ 12 * msPerHour then 1 / 2
  else 0

def withheldReservationUnits (unspentOtherReservations : Nat) (now : ℚ) : Nat :=
  if 1 ≤ reservationBorrowFraction now then 0
  else ⌈(unspentOtherReservations : ℚ) * (1 - reservationBorrowFraction now)⌉₊

/-! ## Submissions -/

structure Submission where
  id : String
  idempotencyKey : String
  requestDigest : String
  providerIdempotencyKey : Option String := none
  priority : Option Nat := none
  purpose : String := ""
  policy : JobPolicy := {}
  promptFamily : String := ""
  inputTokenEstimate : ℚ := 0
  maxOutputTokenEstimate : ℚ := 0
  payloadKey : String := ""
  deriving DecidableEq

def Submission.row (job : Submission) (now : ℚ) : JobRow where
  id := job.id
  idempotencyKey := job.idempotencyKey
  requestDigest := job.requestDigest
  providerIdempotencyKey := job.providerIdempotencyKey
  priority := job.priority.getD 1
  purpose := job.purpose
  policy := job.policy
  promptFamily := job.promptFamily
  inputTokenEstimate := job.inputTokenEstimate
  maxOutputTokenEstimate := job.maxOutputTokenEstimate
  payloadKey := job.payloadKey
  createdAt := now
  updatedAt := now

def Submission.supersedes (job : Submission) (row : JobRow) (purpose : String) (now : ℚ) :
    JobRow :=
  { row.released with
    requestDigest := job.requestDigest
    providerIdempotencyKey := job.providerIdempotencyKey
    priority := job.priority.getD 1
    purpose := purpose
    policy := job.policy
    promptFamily := job.promptFamily
    inputTokenEstimate := job.inputTokenEstimate
    maxOutputTokenEstimate := job.maxOutputTokenEstimate
    payloadKey := job.payloadKey
    resultKey := none
    terminalReason := none
    terminalCatalogDigest := none
    attempts := 0
    transientRetryCount := 0
    sizeExcludedRoutes := none
    quotaExcludedRoutes := none
    responseTimeoutRoutes := none
    createdAt := now
    updatedAt := now }

inductive Rejection
  | dailyRowBudget
  | idempotencyConflict
  | purposeNotRegistered (purpose : String)
  | routeIdNotInModelPool (routeIds : List String)
  | modelNotInLane (purpose : String) (models : List String)
  | backupAfterAttemptsBelowLaneMinimum (purpose : String)
  | queueFull
  | purposeQueueFull
  | dailyCapExceeded
  | purposeWriteBudgetExceeded
  | ingressWriteBudgetReserved
  deriving DecidableEq

structure Accepted where
  id : String
  submittedId : String
  superseded : Bool := false
  deriving DecidableEq

/-! ## One batch -/

/-- What a batch reads once. -/
structure BatchContext where
  now : ℚ
  rowBudget : RowBudget
  utcDay : ℤ
  queuedNow : ℤ
  jobsIngestedToday : Nat
  ingressWriteUnits : Nat

/-- What a batch has done so far. -/
structure BatchProgress where
  tables : JobTables
  newlyInserted : Nat := 0
  queuedAdded : Nat := 0
  newlyAdmittedWriteUnits : Nat := 0
  rowBudgetReserved : ℚ := 0
  purposeUsage : Dict String PurposeUsage
  purposeDeltas : Dict String PurposeUsage := []
  purposeQueuedCounts : Dict String Nat := []
  accepted : List Accepted := []
  rejected : List (String × Rejection) := []

def usageOf (usage : Dict String PurposeUsage) (purpose : String) : PurposeUsage :=
  (usage.get? purpose).getD {}

def unitsUsed (usage : Dict String PurposeUsage) (purpose : String) : Nat :=
  (usageOf usage purpose).writeUnits

def addUsage (usage : Dict String PurposeUsage) (purpose : String) (units : Nat) :
    Dict String PurposeUsage :=
  usage.set purpose
    ⟨(usageOf usage purpose).jobsIngested + 1, (usageOf usage purpose).writeUnits + units⟩

namespace BatchProgress

def reject (job : Submission) (reason : Rejection) (progress : BatchProgress) : BatchProgress :=
  { progress with rejected := progress.rejected ++ [(job.id, reason)] }

def accept (accepted : Accepted) (progress : BatchProgress) : BatchProgress :=
  { progress with accepted := progress.accepted ++ [accepted] }

def countPurposeQueued (purpose : String) (cap : Nat) (progress : BatchProgress) :
    BatchProgress :=
  if cap = 0 ∨ progress.purposeQueuedCounts.contains purpose then progress
  else
    let queued := (progress.tables.jobs.filter fun entry =>
      decide (entry.2.state = .queued ∧ entry.2.purpose = purpose)).length
    { progress with
      purposeQueuedCounts := progress.purposeQueuedCounts.set purpose (min cap queued) }

def purposeQueueFull (purpose : String) (cap : Nat) (progress : BatchProgress) : Bool :=
  0 < cap ∧ cap ≤ (progress.purposeQueuedCounts.get? purpose).getD 0

def notePurposeQueued (purpose : String) (progress : BatchProgress) : BatchProgress :=
  match progress.purposeQueuedCounts.get? purpose with
  | some count =>
      { progress with
        purposeQueuedCounts := progress.purposeQueuedCounts.set purpose (count + 1) }
  | none => progress

end BatchProgress

section

variable (config : IngressConfig) (catalog : LaneCatalog)

def IngressConfig.lane (purpose : String) : Option LaneReservation :=
  config.reservations.lanes.get? purpose

/-- The largest number of queued jobs of a purpose, zero for no limit. -/
def IngressConfig.maxQueuedJobsOf (purpose : String) : Nat :=
  ((config.lane purpose).bind LaneReservation.maxQueuedJobs).getD 0

/-- Past the enqueue threshold nothing new is admitted. -/
def rowBudgetClosed (context : BatchContext) : Bool :=
  config.enqueueRowStop ≤ context.rowBudget.rowsWrittenToday

/-- Whether a batch may write so many more rows, its shared writes included. -/
def canReserveRows (context : BatchContext) (progress : BatchProgress) (rows : ℚ) : Bool :=
  context.rowBudget.rowsWrittenToday + progress.rowBudgetReserved + rows + 64 <
    config.enqueueRowStop

/-- What the rules of its lane hold against a job. -/
def laneRejection (job : JobRow) (purpose : String) : Option Rejection :=
  if (config.lane purpose).isNone then some (.purposeNotRegistered purpose)
  else if catalog.routeIdsOutsideModelPool job ≠ [] then
    some (.routeIdNotInModelPool (catalog.routeIdsOutsideModelPool job))
  else if catalog.modelsOutsideLane job purpose ≠ [] then
    some (.modelNotInLane purpose (catalog.modelsOutsideLane job purpose))
  else if catalog.backupThresholdBelowLaneMinimum job purpose then
    some (.backupAfterAttemptsBelowLaneMinimum purpose)
  else none

/-- The other lanes' unspent reservations that an admission must leave. -/
def withheldFor (usage : Dict String PurposeUsage) (purpose : String) (now : ℚ) : Nat :=
  withheldReservationUnits
    (Reserve.outstandingOthers config.reserves (unitsUsed usage) purpose) now

/-- Whether the day's budget, less what is withheld for the other lanes, is too
small for one more job. -/
def exceedsReserved (context : BatchContext) (progress : BatchProgress) (purpose : String)
    (units : Nat) : Bool :=
  config.maxIngressWriteUnitsPerUtcDay <
    context.ingressWriteUnits + progress.newlyAdmittedWriteUnits + units +
      withheldFor config progress.purposeUsage purpose context.now

def exceedsDailyUnits (usage : Dict String PurposeUsage) (purpose : String) (units : Nat) :
    Bool :=
  match (config.lane purpose).bind LaneReservation.dailyWriteUnits with
  | some limit => limit < unitsUsed usage purpose + units
  | none => false

/-- A queue with no room for one more job. -/
def queueFull (context : BatchContext) (progress : BatchProgress) : Bool :=
  (config.maxQueuedJobs : ℤ) ≤ context.queuedNow + progress.queuedAdded

/-! ### Superseding a stale row -/

/-- What stands against superseding a row, once its purpose has been counted. -/
def supersedeRejection (context : BatchContext) (progress : BatchProgress) (row : JobRow)
    (purpose : String) (units : Nat) : Option Rejection :=
  if row.state ≠ .queued ∧ progress.purposeQueueFull purpose (config.maxQueuedJobsOf purpose) then
    some .purposeQueueFull
  else if ¬ canReserveRows config context progress (4 * units) then some .dailyRowBudget
  else none

def BatchProgress.superseding (row : JobRow) (purpose : String) (rows : ℚ) (tables : JobTables)
    (progress : BatchProgress) : BatchProgress :=
  if row.state = .queued then
    { progress with
      tables := tables
      rowBudgetReserved := progress.rowBudgetReserved + rows }
  else
    { progress.notePurposeQueued purpose with
      tables := tables
      queuedAdded := progress.queuedAdded + 1
      rowBudgetReserved := progress.rowBudgetReserved + rows }

/-- Replace the stale row of the same identity. -/
def supersedeRow (context : BatchContext) (progress : BatchProgress) (row : JobRow)
    (job : Submission) (submitted : JobRow) (purpose : String) : Option BatchProgress :=
  match supersedeRejection config context progress row purpose
      (catalog.ingressWriteUnitsFor submitted) with
  | some reason => some (progress.reject job reason)
  | none =>
      (progress.tables.supersede row (job.supersedes row purpose context.now)
          (catalog.modelsToIndex submitted)).map fun tables =>
        (progress.superseding row purpose (4 * catalog.ingressWriteUnitsFor submitted)
          tables).accept ⟨row.id, job.id, true⟩

def supersedeJob (context : BatchContext) (progress : BatchProgress) (row : JobRow)
    (job : Submission) : Option BatchProgress :=
  let submitted := { job.row context.now with id := row.id }
  let purpose := catalog.purposeForJob submitted
  match laneRejection config catalog submitted purpose with
  | some reason => some (progress.reject job reason)
  | none =>
      if row.state = .queued then
        supersedeRow config catalog context progress row job submitted purpose
      else if queueFull config context progress then some (progress.reject job .queueFull)
      else
        supersedeRow config catalog context
          (progress.countPurposeQueued purpose (config.maxQueuedJobsOf purpose)) row job submitted
          purpose

/-! ### Inserting a new row -/

/-- What stands against a new row before its purpose has been counted. -/
def insertRejection (context : BatchContext) (progress : BatchProgress) (submitted : JobRow)
    (purpose : String) : Option Rejection :=
  if queueFull config context progress then some .queueFull
  else if config.maxJobsPerUtcDay ≤ context.jobsIngestedToday + progress.newlyInserted then
    some .dailyCapExceeded
  else laneRejection config catalog submitted purpose

/-- What stands against a new row of so many units after that. -/
def budgetRejection (context : BatchContext) (progress : BatchProgress) (purpose : String)
    (units : Nat) : Option Rejection :=
  if progress.purposeQueueFull purpose (config.maxQueuedJobsOf purpose) then
    some .purposeQueueFull
  else if exceedsDailyUnits config progress.purposeUsage purpose units then
    some .purposeWriteBudgetExceeded
  else if exceedsReserved config context progress purpose units then
    some .ingressWriteBudgetReserved
  else if ¬ canReserveRows config context progress
      (context.rowBudget.rowsPerIngressWriteUnit * units) then some .dailyRowBudget
  else none

def BatchProgress.inserting (purpose : String) (units : Nat) (rows : ℚ) (tables : JobTables)
    (progress : BatchProgress) : BatchProgress :=
  { progress.notePurposeQueued purpose with
    tables := tables
    newlyInserted := progress.newlyInserted + 1
    queuedAdded := progress.queuedAdded + 1
    newlyAdmittedWriteUnits := progress.newlyAdmittedWriteUnits + units
    rowBudgetReserved := progress.rowBudgetReserved + rows
    purposeUsage := addUsage progress.purposeUsage purpose units
    purposeDeltas := addUsage progress.purposeDeltas purpose units }

def insertRow (context : BatchContext) (progress : BatchProgress) (job : Submission)
    (submitted : JobRow) (purpose : String) : Option BatchProgress :=
  let units := catalog.ingressWriteUnitsFor submitted
  match budgetRejection config context progress purpose units with
  | some reason => some (progress.reject job reason)
  | none =>
      (progress.tables.insertQueued { submitted with purpose := purpose }
          (catalog.modelsToIndex submitted)).map fun tables =>
        (progress.inserting purpose units (context.rowBudget.rowsPerIngressWriteUnit * units)
          tables).accept ⟨job.id, job.id, false⟩

def insertJob (context : BatchContext) (progress : BatchProgress) (job : Submission) :
    Option BatchProgress :=
  let submitted := job.row context.now
  let purpose := catalog.purposeForJob submitted
  match insertRejection config catalog context progress submitted purpose with
  | some reason => some (progress.reject job reason)
  | none =>
      insertRow config catalog context
        (progress.countPurposeQueued purpose (config.maxQueuedJobsOf purpose)) job submitted purpose

/-! ### The batch -/

def rowWithKey (jobs : Dict String JobRow) (idempotencyKey : String) : Option JobRow :=
  jobs.values.find? fun row => decide (row.idempotencyKey = idempotencyKey)

def enqueueJob (context : BatchContext) (progress : BatchProgress) (job : Submission) :
    Option BatchProgress :=
  match rowWithKey progress.tables.jobs job.idempotencyKey with
  | some row =>
      if row.requestDigest = job.requestDigest then
        some (progress.accept ⟨row.id, job.id, false⟩)
      else if rowBudgetClosed config context then some (progress.reject job .dailyRowBudget)
      else if row.state = .leased ∨ row.state = .unknownAttempt then
        some (progress.reject job .idempotencyConflict)
      else supersedeJob config catalog context progress row job
  | none =>
      if rowBudgetClosed config context then some (progress.reject job .dailyRowBudget)
      else insertJob config catalog context progress job

def enqueueJobs (context : BatchContext) (progress : BatchProgress) (batch : List Submission) :
    Option BatchProgress :=
  batch.foldlM (enqueueJob config catalog context) progress

def usageToday (ledger : Dict ℤ (Dict String PurposeUsage)) (utcDay : ℤ) :
    Dict String PurposeUsage :=
  (ledger.get? utcDay).getD []

def upsertUsage (ledger : Dict ℤ (Dict String PurposeUsage)) (utcDay : ℤ)
    (deltas : Dict String PurposeUsage) : Dict ℤ (Dict String PurposeUsage) :=
  deltas.foldl
    (fun ledger delta =>
      let before := usageOf (usageToday ledger utcDay) delta.1
      ledger.set utcDay ((usageToday ledger utcDay).set delta.1
        ⟨before.jobsIngested + delta.2.jobsIngested, before.writeUnits + delta.2.writeUnits⟩))
    ledger

def beginBatch (now : ℚ) (state : Coordinator) : Coordinator :=
  state.ensureQueuedJobCounter.rollUtcDayIfNeeded now

def batchContext (now : ℚ) (rowBudget : RowBudget) (state : Coordinator) : BatchContext where
  now := now
  rowBudget := rowBudget
  utcDay := state.scheduler.utcDay
  queuedNow := state.scheduler.queuedJobCount
  jobsIngestedToday := state.scheduler.jobsIngestedToday
  ingressWriteUnits := state.scheduler.ingressWriteUnitsToday

def batchStart (state : Coordinator) : BatchProgress where
  tables := state.tables
  purposeUsage := usageToday state.ingressPurpose state.scheduler.utcDay

/-- The purpose ledger and the scheduler take over a batch in one write each. -/
def commitBatch (state : Coordinator) (progress : BatchProgress) : Coordinator :=
  { state with
    tables := progress.tables
    ingressPurpose :=
      upsertUsage state.ingressPurpose state.scheduler.utcDay progress.purposeDeltas
    scheduler :=
      { state.scheduler with
        jobsIngestedToday := state.scheduler.jobsIngestedToday + progress.newlyInserted
        ingressWriteUnitsToday :=
          state.scheduler.ingressWriteUnitsToday + progress.newlyAdmittedWriteUnits
        queuedJobCount := state.scheduler.queuedJobCount + progress.queuedAdded } }

structure BatchReply where
  accepted : List Accepted
  rejected : List (String × Rejection)
  deriving DecidableEq

/-- Admit a batch, as one transaction. -/
def enqueueBatch (now : ℚ) (rowBudget : RowBudget) (batch : List Submission)
    (state : Coordinator) : Option (Coordinator × BatchReply) :=
  let begun := beginBatch now state
  (enqueueJobs config catalog (batchContext now rowBudget begun) (batchStart begun) batch).map
    fun progress => (commitBatch begun progress, ⟨progress.accepted, progress.rejected⟩)

/-! ## Schema correction -/

structure SchemaCorrection where
  correctedRequestDigest : String
  correctedPayloadKey : String
  correctedInputTokenEstimate : ℚ
  deriving DecidableEq

inductive SchemaRetryReply
  | accepted (id : String)
  | conflict
  | notFound
  | invalidState (state : JobState)
  | dailyCapExceeded
  | purposeNotRegistered
  | modelNotInLane
  | backupAfterAttemptsBelowLaneMinimum
  | purposeWriteBudgetExceeded
  | ingressWriteBudgetReserved
  deriving DecidableEq

def SchemaCorrection.row (retry : SchemaCorrection) (source : JobRow) (id purpose : String)
    (now : ℚ) : JobRow where
  id := id
  idempotencyKey := "schema-correction-v2:" ++ source.id
  requestDigest := retry.correctedRequestDigest
  providerIdempotencyKey := source.providerIdempotencyKey
  priority := source.priority
  purpose := purpose
  policy := source.policy
  promptFamily := source.promptFamily
  inputTokenEstimate := retry.correctedInputTokenEstimate
  maxOutputTokenEstimate := source.maxOutputTokenEstimate
  payloadKey := retry.correctedPayloadKey
  attempts := source.attempts
  schemaRetryCount := source.schemaRetryCount + 1
  createdAt := now
  updatedAt := now

def schemaRetryPurpose (source : JobRow) : String :=
  if source.purpose = "" then catalog.purposeForJob source else source.purpose

def chargedRetry (retry : SchemaCorrection) (source : JobRow) : JobRow :=
  { source with
    inputTokenEstimate := retry.correctedInputTokenEstimate
    schemaRetryCount := source.schemaRetryCount + 1 }

/-- What stands against a correction of a completed source. -/
def schemaRetryRejection (rowBudget : RowBudget) (now : ℚ) (state : Coordinator)
    (source : JobRow) (retry : SchemaCorrection) : Option SchemaRetryReply :=
  let purpose := schemaRetryPurpose catalog source
  let usage := usageToday state.ingressPurpose state.scheduler.utcDay
  let units := catalog.ingressWriteUnitsFor (chargedRetry retry source)
  if config.maxJobsPerUtcDay ≤ state.scheduler.jobsIngestedToday ∨
      config.enqueueRowStop ≤ rowBudget.rowsWrittenToday then some .dailyCapExceeded
  else if (config.lane purpose).isNone then some .purposeNotRegistered
  else if catalog.modelsOutsideLane source purpose ≠ [] then some .modelNotInLane
  else if catalog.backupThresholdBelowLaneMinimum source purpose then
    some .backupAfterAttemptsBelowLaneMinimum
  else if exceedsDailyUnits config usage purpose units then some .purposeWriteBudgetExceeded
  else if config.maxIngressWriteUnitsPerUtcDay <
      state.scheduler.ingressWriteUnitsToday + units + withheldFor config usage purpose now then
    some .ingressWriteBudgetReserved
  else none

def admitRetry (now : ℚ) (freshId : String) (state : Coordinator) (source : JobRow)
    (retry : SchemaCorrection) : Option Coordinator :=
  let purpose := schemaRetryPurpose catalog source
  let units := catalog.ingressWriteUnitsFor (chargedRetry retry source)
  let row := retry.row source freshId purpose now
  (state.tables.insertQueued row (catalog.modelsToIndex row)).map fun tables =>
    { state with
      tables := tables
      ingressPurpose :=
        upsertUsage state.ingressPurpose state.scheduler.utcDay [(purpose, ⟨1, units⟩)]
      scheduler :=
        { state.scheduler with
          jobsIngestedToday := state.scheduler.jobsIngestedToday + 1
          ingressWriteUnitsToday := state.scheduler.ingressWriteUnitsToday + units
          queuedJobCount := state.scheduler.queuedJobCount + 1 } }

/-- Clone a completed job with a corrected payload. -/
def schemaRetry (now : ℚ) (rowBudget : RowBudget) (freshId sourceId : String)
    (retry : SchemaCorrection) (state : Coordinator) : Option (Coordinator × SchemaRetryReply) :=
  match rowWithKey state.tables.jobs ("schema-correction-v2:" ++ sourceId) with
  | some existing =>
      if existing.requestDigest = retry.correctedRequestDigest then
        some (state, .accepted existing.id)
      else some (state, .conflict)
  | none =>
      match state.tables.jobs.get? sourceId with
      | none => some (state, .notFound)
      | some source =>
          if source.state ≠ .completed then some (state, .invalidState source.state)
          else
            let begun := (state.rollUtcDayIfNeeded now).ensureQueuedJobCounter
            match schemaRetryRejection config catalog rowBudget now begun source retry with
            | some reason => some (begun, reason)
            | none =>
                (admitRetry catalog now freshId begun source retry).map fun after =>
                  (after, .accepted freshId)

end

end CityPods.Dispatch
