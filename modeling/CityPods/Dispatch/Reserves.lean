import CityPods.Dispatch.Ingress

/-! # Ingress reservations

While nothing may be borrowed, every admission leaves the other lanes what they
have not used of their reservations, so that the day's units and all unused
reservations together stay within the budget.
-/

namespace CityPods.Dispatch

open Foundation

/-! ## What a batch charges -/

/-- The columns of a batch's progress that its budgets are kept in. -/
structure Charges where
  units : Nat
  usage : Dict String PurposeUsage
  deltas : Dict String PurposeUsage

def BatchProgress.charges (progress : BatchProgress) : Charges :=
  ⟨progress.newlyAdmittedWriteUnits, progress.purposeUsage, progress.purposeDeltas⟩

/-- One more admitted job. -/
def Charges.add (charges : Charges) (purpose : String) (units : Nat) : Charges :=
  ⟨charges.units + units, addUsage charges.usage purpose units,
    addUsage charges.deltas purpose units⟩

section

variable (progress : BatchProgress) (purpose : String)

@[simp] theorem charges_countPurposeQueued (cap : Nat) :
    (progress.countPurposeQueued purpose cap).charges = progress.charges := by
  unfold BatchProgress.countPurposeQueued
  split <;> rfl

@[simp] theorem charges_notePurposeQueued :
    (progress.notePurposeQueued purpose).charges = progress.charges := by
  unfold BatchProgress.notePurposeQueued
  split <;> rfl

@[simp] theorem rejected_countPurposeQueued (cap : Nat) :
    (progress.countPurposeQueued purpose cap).rejected = progress.rejected := by
  unfold BatchProgress.countPurposeQueued
  split <;> rfl

@[simp] theorem rejected_notePurposeQueued :
    (progress.notePurposeQueued purpose).rejected = progress.rejected := by
  unfold BatchProgress.notePurposeQueued
  split <;> rfl

end

section

variable {config : IngressConfig} {catalog : LaneCatalog} {context : BatchContext}
  {progress next : BatchProgress} {job : Submission}

/-- The units of the next admission are refused, or leave the others their reserves. -/
def Refuses (config : IngressConfig) (context : BatchContext) (charges : Charges)
    (purpose : String) (units : Nat) : Prop :=
  config.maxIngressWriteUnitsPerUtcDay <
    context.ingressWriteUnits + charges.units + units +
      withheldFor config charges.usage purpose context.now

theorem exceedsReserved_iff (purpose : String) (units : Nat) :
    exceedsReserved config context progress purpose units = true ↔
      Refuses config context progress.charges purpose units := by
  unfold exceedsReserved Refuses
  rw [decide_eq_true_iff]
  rfl

/-- A job for which nothing was admitted, and what was refused it. -/
structure Declined (progress next : BatchProgress) (refused : Prop) (job : Submission) :
    Prop where
  charges : next.charges = progress.charges
  reason : next.rejected = progress.rejected ++ [(job.id, .ingressWriteBudgetReserved)] → refused

variable {reason : Rejection} {refused : Prop}

theorem Declined.reject {other : BatchProgress}
    (charges : other.charges = progress.charges) (rejected : other.rejected = progress.rejected)
    (named : reason = .ingressWriteBudgetReserved → refused) :
    Declined progress (other.reject job reason) refused job where
  charges := charges
  reason same := by
    simp only [BatchProgress.reject, rejected, List.append_cancel_left_eq, List.cons.injEq,
      Prod.mk.injEq, true_and, and_true] at same
    exact named same

theorem Declined.keep (charges : next.charges = progress.charges)
    (rejected : next.rejected = progress.rejected) : Declined progress next refused job where
  charges := charges
  reason same := by
    rw [rejected] at same
    have lengths := congrArg List.length same
    simp at lengths

variable {purpose : String} {row : JobRow}

theorem laneRejection_ne (rejected : laneRejection config catalog row purpose = some reason) :
    reason ≠ .ingressWriteBudgetReserved := by
  rintro rfl
  unfold laneRejection at rejected
  split at rejected
  · cases rejected
  split at rejected
  · cases rejected
  split at rejected
  · cases rejected
  split at rejected <;> cases rejected

variable {units : Nat}

theorem supersedeRejection_ne
    (rejected : supersedeRejection config context progress row purpose units = some reason) :
    reason ≠ .ingressWriteBudgetReserved := by
  rintro rfl
  unfold supersedeRejection at rejected
  split at rejected
  · cases rejected
  split at rejected <;> cases rejected

variable {submitted : JobRow}

theorem supersedeRow_declined
    {counted : BatchProgress} (charges : counted.charges = progress.charges)
    (rejected : counted.rejected = progress.rejected)
    (step : supersedeRow config catalog context counted row job submitted purpose = some next) :
    Declined progress next refused job := by
  unfold supersedeRow at step
  cases refusal : supersedeRejection config context counted row purpose
      (catalog.ingressWriteUnitsFor submitted) with
  | some reason =>
      rw [refusal] at step
      cases step
      exact .reject charges rejected fun same => absurd same (supersedeRejection_ne refusal)
  | none =>
      rw [refusal] at step
      obtain ⟨tables, _, rfl⟩ := Option.map_eq_some_iff.mp step
      unfold BatchProgress.superseding
      split
      · exact .keep charges rejected
      · exact .keep ((charges_notePurposeQueued counted purpose).trans charges)
          ((rejected_notePurposeQueued counted purpose).trans rejected)

theorem supersedeJob_declined
    (step : supersedeJob config catalog context progress row job = some next) :
    Declined progress next refused job := by
  unfold supersedeJob at step
  dsimp only at step
  cases lane : laneRejection config catalog { job.row context.now with id := row.id }
      (catalog.purposeForJob { job.row context.now with id := row.id }) with
  | some reason =>
      rw [lane] at step
      cases step
      exact .reject rfl rfl fun same => absurd same (laneRejection_ne lane)
  | none =>
      rw [lane] at step
      by_cases queued : row.state = .queued
      · simp only [queued, if_true] at step
        exact supersedeRow_declined rfl rfl step
      simp only [queued, if_false] at step
      cases full : queueFull config context progress with
      | true =>
          simp only [full, if_true] at step
          cases step
          exact .reject rfl rfl fun same => by cases same
      | false =>
          simp only [full, Bool.false_eq_true, if_false] at step
          exact supersedeRow_declined (charges_countPurposeQueued _ _ _)
            (rejected_countPurposeQueued _ _ _) step

theorem insertRejection_ne
    (rejected : insertRejection config catalog context progress submitted purpose = some reason) :
    reason ≠ .ingressWriteBudgetReserved := by
  rintro rfl
  unfold insertRejection at rejected
  split at rejected
  · cases rejected
  split at rejected
  · cases rejected
  exact laneRejection_ne rejected rfl

/-- Only a job that does not fit beside the reserves is refused for them. -/
theorem budgetRejection_reserved (rejected : budgetRejection config context progress purpose units =
      some .ingressWriteBudgetReserved) :
    Refuses config context progress.charges purpose units := by
  unfold budgetRejection at rejected
  split at rejected
  · cases rejected
  split at rejected
  · cases rejected
  split at rejected
  · next exceeds =>
    exact (exceedsReserved_iff purpose units).mp exceeds
  split at rejected <;> cases rejected

theorem budgetRejection_none
    (passed : budgetRejection config context progress purpose units = none) :
    ¬ Refuses config context progress.charges purpose units := by
  unfold budgetRejection at passed
  split at passed
  · cases passed
  split at passed
  · cases passed
  split at passed
  · cases passed
  · next within =>
    exact fun refuses => within ((exceedsReserved_iff purpose units).mpr refuses)

def Submission.charge (catalog : LaneCatalog) (now : ℚ) (job : Submission) : String × Nat :=
  (catalog.purposeForJob (job.row now), catalog.ingressWriteUnitsFor (job.row now))

/-- A job is declined and charges nothing, or is admitted and leaves the others
their reserves. -/
def ChargesJob (config : IngressConfig) (catalog : LaneCatalog) (context : BatchContext)
    (progress next : BatchProgress) (job : Submission) : Prop :=
  let charge := job.charge catalog context.now
  Declined progress next (Refuses config context progress.charges charge.1 charge.2) job ∨
    (¬ Refuses config context progress.charges charge.1 charge.2 ∧
      next.charges = progress.charges.add charge.1 charge.2 ∧ next.rejected = progress.rejected)

theorem insertJob_charges (step : insertJob config catalog context progress job = some next) :
    ChargesJob config catalog context progress next job := by
  unfold insertJob at step
  dsimp only at step
  have counted := charges_countPurposeQueued progress (catalog.purposeForJob (job.row context.now))
    (config.maxQueuedJobsOf (catalog.purposeForJob (job.row context.now)))
  have unchanged := rejected_countPurposeQueued progress
    (catalog.purposeForJob (job.row context.now))
    (config.maxQueuedJobsOf (catalog.purposeForJob (job.row context.now)))
  cases lane : insertRejection config catalog context progress (job.row context.now)
      (catalog.purposeForJob (job.row context.now)) with
  | some reason =>
      rw [lane] at step
      cases step
      exact .inl (.reject rfl rfl fun same => absurd same (insertRejection_ne lane))
  | none =>
      rw [lane] at step
      dsimp only at step
      generalize progress.countPurposeQueued _ _ = ready at step counted unchanged
      unfold insertRow at step
      dsimp only at step
      cases refusal : budgetRejection config context ready
          (catalog.purposeForJob (job.row context.now))
          (catalog.ingressWriteUnitsFor (job.row context.now)) with
      | some reason =>
          rw [refusal] at step
          cases step
          refine .inl (.reject counted unchanged ?_)
          rintro rfl
          rw [← counted]
          exact budgetRejection_reserved refusal
      | none =>
          rw [refusal] at step
          obtain ⟨tables, _, rfl⟩ := Option.map_eq_some_iff.mp step
          have passed := budgetRejection_none refusal
          rw [counted] at passed
          have columns := congrArg (Charges.add · (catalog.purposeForJob (job.row context.now))
            (catalog.ingressWriteUnitsFor (job.row context.now))) counted
          exact .inr ⟨passed, columns, (rejected_notePurposeQueued ready _).trans unchanged⟩

theorem enqueueJob_charges (step : enqueueJob config catalog context progress job = some next) :
    ChargesJob config catalog context progress next job := by
  unfold enqueueJob at step
  cases found : rowWithKey progress.tables.jobs job.idempotencyKey with
  | some row =>
      rw [found] at step
      dsimp only at step
      by_cases replay : row.requestDigest = job.requestDigest
      · rw [if_pos replay] at step
        cases step
        exact .inl (.keep rfl rfl)
      rw [if_neg replay] at step
      by_cases closed : rowBudgetClosed config context
      · rw [if_pos closed] at step
        cases step
        exact .inl (.reject rfl rfl fun same => by cases same)
      rw [if_neg closed] at step
      by_cases running : row.state = .leased ∨ row.state = .unknownAttempt
      · rw [if_pos running] at step
        cases step
        exact .inl (.reject rfl rfl fun same => by cases same)
      rw [if_neg running] at step
      exact .inl (supersedeJob_declined step)
  | none =>
      rw [found] at step
      dsimp only at step
      by_cases closed : rowBudgetClosed config context
      · rw [if_pos closed] at step
        cases step
        exact .inl (.reject rfl rfl fun same => by cases same)
      rw [if_neg closed] at step
      exact insertJob_charges step

end

/-! ## Withheld units -/

/-- With more than half the day left the whole of the unspent reserves is withheld. -/
theorem withheldReservationUnits_early {now : ℚ} (early : 12 * msPerHour < msUntilRollover now)
    (unspent : Nat) : withheldReservationUnits unspent now = unspent := by
  have later : 6 * msPerHour < msUntilRollover now := by
    have hour : (6 : ℚ) * msPerHour ≤ 12 * msPerHour := by
      unfold msPerHour
      norm_num
    exact lt_of_le_of_lt hour early
  have nothing : reservationBorrowFraction now = 0 := by
    unfold reservationBorrowFraction
    rw [if_neg (not_le.mpr later), if_neg (not_le.mpr early)]
  unfold withheldReservationUnits
  rw [nothing, if_neg (by norm_num), sub_zero, mul_one, Nat.ceil_natCast]

/-! ## A batch keeps the reserves -/

theorem unitsUsed_addUsage (usage : Dict String PurposeUsage) (purpose : String) (units : Nat) :
    unitsUsed (addUsage usage purpose units) =
      Reserve.spend (unitsUsed usage) purpose units := by
  funext other
  unfold unitsUsed usageOf addUsage Reserve.spend
  rw [Dict.get?_set]
  by_cases same : purpose = other
  · subst same
    rw [if_pos rfl, if_pos rfl]
    rfl
  · rw [if_neg same, if_neg fun equal => same equal.symm]

theorem IngressConfig.reserves_nodup (config : IngressConfig) : config.reserves.keys.Nodup := by
  have keys : config.reserves.keys = config.reservations.lanes.keys := by
    simp [IngressConfig.reserves, Dict.keys, Dict.mapValues]
  exact keys ▸ config.reservations.nodup

/-- The units admitted so far and all unused reserves fit the day's budget. -/
def Charges.Within (config : IngressConfig) (admitted : Nat) (charges : Charges) : Prop :=
  admitted + charges.units + Reserve.outstanding config.reserves (unitsUsed charges.usage) ≤
    config.maxIngressWriteUnitsPerUtcDay

section

variable {config : IngressConfig} {catalog : LaneCatalog} {context : BatchContext}
  {progress next : BatchProgress} {job : Submission}

theorem refuses_iff (early : 12 * msPerHour < msUntilRollover context.now) (charges : Charges)
    (purpose : String) (units : Nat) :
    Refuses config context charges purpose units ↔
      config.maxIngressWriteUnitsPerUtcDay < context.ingressWriteUnits + charges.units + units +
        Reserve.outstandingOthers config.reserves (unitsUsed charges.usage) purpose := by
  unfold Refuses withheldFor
  rw [withheldReservationUnits_early early]

theorem Charges.Within.step (early : 12 * msPerHour < msUntilRollover context.now)
    (within : progress.charges.Within config context.ingressWriteUnits)
    (step : enqueueJob config catalog context progress job = some next) :
    next.charges.Within config context.ingressWriteUnits := by
  rcases enqueueJob_charges step with declined | ⟨passed, charged, _⟩
  · rwa [declined.charges]
  · rw [refuses_iff early, not_lt] at passed
    rw [charged]
    unfold Charges.Within Charges.add
    dsimp only
    rw [unitsUsed_addUsage, ← add_assoc]
    exact Reserve.accept config.reserves_nodup within passed

theorem Charges.Within.not_refused (early : 12 * msPerHour < msUntilRollover context.now)
    (within : progress.charges.Within config context.ingressWriteUnits)
    (step : enqueueJob config catalog context progress job = some next) {reserve : Nat}
    (registered : config.reserves.get? (catalog.purposeForJob (job.row context.now)) = some reserve)
    (left : unitsUsed progress.purposeUsage (catalog.purposeForJob (job.row context.now)) +
      catalog.ingressWriteUnitsFor (job.row context.now) ≤ reserve) :
    next.rejected ≠ progress.rejected ++ [(job.id, .ingressWriteBudgetReserved)] := by
  intro refused
  have fits := Reserve.fits_of_reserve config.reserves_nodup within registered left
  rcases enqueueJob_charges step with declined | ⟨_, _, unchanged⟩
  · have refuses := declined.reason refused
    rw [refuses_iff early] at refuses
    exact absurd fits (not_le.mpr refuses)
  · rw [unchanged] at refused
    have lengths := congrArg List.length refused
    simp at lengths

/-- A batch's ledger of purposes is the stored one with its deltas. -/
structure Charges.Matches (stored : Dict String PurposeUsage) (charges : Charges) : Prop where
  nodup : charges.deltas.keys.Nodup
  usage : ∀ purpose,
    unitsUsed charges.usage purpose = unitsUsed stored purpose + unitsUsed charges.deltas purpose

variable {stored : Dict String PurposeUsage}

theorem Charges.Matches.step (matched : progress.charges.Matches stored)
    (step : enqueueJob config catalog context progress job = some next) :
    next.charges.Matches stored := by
  rcases enqueueJob_charges step with declined | ⟨_, charged, _⟩
  · rwa [declined.charges]
  · rw [charged]
    refine ⟨Dict.nodup_keys_set matched.nodup _ _, fun purpose => ?_⟩
    unfold Charges.add
    dsimp only
    rw [unitsUsed_addUsage, unitsUsed_addUsage]
    unfold Reserve.spend
    have before := matched.usage
    split
    · next same =>
      rw [before, same, add_assoc]
    · exact before purpose

theorem enqueueJobs_charges (context : BatchContext)
    (early : 12 * msPerHour < msUntilRollover context.now) {batch : List Submission}
    (within : progress.charges.Within config context.ingressWriteUnits)
    (matched : progress.charges.Matches stored)
    (steps : enqueueJobs config catalog context progress batch = some next) :
    next.charges.Within config context.ingressWriteUnits ∧ next.charges.Matches stored := by
  induction batch generalizing progress with
  | nil =>
      cases steps
      exact ⟨within, matched⟩
  | cons job later induction =>
      obtain ⟨middle, first, rest⟩ := Option.bind_eq_some_iff.mp steps
      exact induction (within.step early first) (matched.step first) rest

end

theorem unitsUsed_upsertUsage {deltas : Dict String PurposeUsage} (nodup : deltas.keys.Nodup)
    (ledger : Dict ℤ (Dict String PurposeUsage)) (utcDay : ℤ) (purpose : String) :
    unitsUsed (usageToday (upsertUsage ledger utcDay deltas) utcDay) purpose =
      unitsUsed (usageToday ledger utcDay) purpose + unitsUsed deltas purpose := by
  induction deltas generalizing ledger with
  | nil => rfl
  | cons delta rest induction =>
      have parts := List.nodup_cons.mp nodup
      have written : ∀ usage : Dict String PurposeUsage,
          usageToday (ledger.set utcDay usage) utcDay = usage := by
        intro usage
        unfold usageToday
        rw [Dict.get?_set_same]
        rfl
      refine (induction parts.2 _).trans ?_
      rw [written]
      unfold unitsUsed usageOf
      rw [Dict.get?_set, Dict.get?_cons]
      by_cases same : delta.1 = purpose
      · have absent : Dict.get? rest purpose = none := Dict.get?_eq_none_iff.mpr (same ▸ parts.1)
        rw [if_pos same, if_pos same, absent, same]
        rfl
      · rw [if_neg same, if_neg same]

/-! ## The day's run -/

def Coordinator.admittedUnits (utcDay : ℤ) (state : Coordinator) : Nat :=
  if state.scheduler.utcDay = utcDay then state.scheduler.ingressWriteUnitsToday else 0

def Coordinator.laneUnits (utcDay : ℤ) (state : Coordinator) (purpose : String) : Nat :=
  unitsUsed (usageToday state.ingressPurpose utcDay) purpose

/-- The states of a day on which jobs are submitted while more than twelve hours
remain before the rollover. What else happens leaves the day's units alone. -/
inductive IngressRun (config : IngressConfig) (catalog : LaneCatalog) (utcDay : ℤ) :
    Coordinator → Prop
  | opens (state : Coordinator) (unspent : state.admittedUnits utcDay = 0)
      (unused : ∀ purpose, state.laneUnits utcDay purpose = 0) :
      IngressRun config catalog utcDay state
  | enqueueBatch {state after : Coordinator} {reply : BatchReply} {now : ℚ}
      {rowBudget : RowBudget} {batch : List Submission}
      (earlier : IngressRun config catalog utcDay state) (today : currentUtcDay now = utcDay)
      (early : 12 * msPerHour < msUntilRollover now)
      (call : enqueueBatch config catalog now rowBudget batch state = some (after, reply)) :
      IngressRun config catalog utcDay after
  | schemaRetry {state after : Coordinator} {reply : SchemaRetryReply} {now : ℚ}
      {rowBudget : RowBudget} {freshId sourceId : String} {retry : SchemaCorrection}
      (earlier : IngressRun config catalog utcDay state) (today : currentUtcDay now = utcDay)
      (early : 12 * msPerHour < msUntilRollover now)
      (call : schemaRetry config catalog now rowBudget freshId sourceId retry state =
        some (after, reply)) :
      IngressRun config catalog utcDay after
  | elsewhere {state after : Coordinator} (earlier : IngressRun config catalog utcDay state)
      (units : after.admittedUnits utcDay = state.admittedUnits utcDay)
      (lanes : after.laneUnits utcDay = state.laneUnits utcDay) :
      IngressRun config catalog utcDay after

/-- The admitted units and all unused reservations fit the day's budget. -/
def Coordinator.ReservesHold (config : IngressConfig) (utcDay : ℤ) (state : Coordinator) : Prop :=
  state.admittedUnits utcDay + Reserve.outstanding config.reserves (state.laneUnits utcDay) ≤
    config.maxIngressWriteUnitsPerUtcDay

section

variable {config : IngressConfig} {catalog : LaneCatalog} {utcDay : ℤ} {state after : Coordinator}
  {now : ℚ}

theorem Coordinator.admittedUnits_roll (today : currentUtcDay now = utcDay) (state : Coordinator) :
    (state.scheduler.rollUtcDayIfNeeded now).ingressWriteUnitsToday =
      state.admittedUnits utcDay := by
  unfold Scheduler.rollUtcDayIfNeeded Coordinator.admittedUnits
  rw [today]
  split <;> rfl

theorem beginBatch_scheduler (now : ℚ) (state : Coordinator) :
    (beginBatch now state).scheduler.utcDay = currentUtcDay now ∧
      (beginBatch now state).scheduler.ingressWriteUnitsToday =
        (state.scheduler.rollUtcDayIfNeeded now).ingressWriteUnitsToday ∧
      (beginBatch now state).ingressPurpose = state.ingressPurpose := by
  unfold beginBatch Coordinator.ensureQueuedJobCounter Coordinator.rollUtcDayIfNeeded
    Scheduler.rollUtcDayIfNeeded
  dsimp only
  split <;> split <;> simp_all

variable {rowBudget : RowBudget}

theorem batchStart_within (today : currentUtcDay now = utcDay)
    (holds : state.ReservesHold config utcDay) :
    (batchStart (beginBatch now state)).charges.Within config
      (batchContext now rowBudget (beginBatch now state)).ingressWriteUnits := by
  have begun := beginBatch_scheduler now state
  have admitted := Coordinator.admittedUnits_roll today state
  unfold Charges.Within batchContext batchStart BatchProgress.charges
  dsimp only
  rw [begun.2.1, begun.1, begun.2.2, admitted, today]
  exact holds

theorem batchStart_matches (state : Coordinator) :
    (batchStart state).charges.Matches (usageToday state.ingressPurpose state.scheduler.utcDay) where
  nodup := List.nodup_nil
  usage _ := rfl

theorem Coordinator.ReservesHold.batch {reply : BatchReply}
    {batch : List Submission} (today : currentUtcDay now = utcDay)
    (early : 12 * msPerHour < msUntilRollover now) (holds : state.ReservesHold config utcDay)
    (call : enqueueBatch config catalog now rowBudget batch state = some (after, reply)) :
    after.ReservesHold config utcDay := by
  obtain ⟨progress, steps, committed⟩ := Option.map_eq_some_iff.mp call
  cases committed
  have begun := beginBatch_scheduler now state
  have charged := enqueueJobs_charges (batchContext now rowBudget (beginBatch now state)) early
    (batchStart_within today holds) (batchStart_matches _) steps
  have dayBegun : (beginBatch now state).scheduler.utcDay = utcDay := begun.1.trans today
  have lanes : (commitBatch (beginBatch now state) progress).laneUnits utcDay =
      unitsUsed progress.charges.usage := by
    funext purpose
    rw [charged.2.usage purpose]
    unfold Coordinator.laneUnits commitBatch
    dsimp only
    rw [dayBegun]
    exact unitsUsed_upsertUsage charged.2.nodup _ _ _
  have units : (commitBatch (beginBatch now state) progress).admittedUnits utcDay =
      (beginBatch now state).scheduler.ingressWriteUnitsToday + progress.charges.units :=
    if_pos dayBegun
  unfold Coordinator.ReservesHold
  rw [lanes, units]
  exact charged.1

/-! ### A correction keeps the reserves -/

/-- The state in which a correction is judged. -/
theorem beginRetry_scheduler (today : currentUtcDay now = utcDay) (state : Coordinator) :
    let begun := (state.rollUtcDayIfNeeded now).ensureQueuedJobCounter
    begun.scheduler.utcDay = utcDay ∧
      begun.scheduler.ingressWriteUnitsToday = state.admittedUnits utcDay ∧
      begun.ingressPurpose = state.ingressPurpose := by
  rw [← Coordinator.admittedUnits_roll today]
  unfold Coordinator.ensureQueuedJobCounter Coordinator.rollUtcDayIfNeeded
    Scheduler.rollUtcDayIfNeeded
  dsimp only
  split <;> split <;> simp_all

def RefusesRetry (config : IngressConfig) (catalog : LaneCatalog) (utcDay : ℤ)
    (state : Coordinator) (source : JobRow) (retry : SchemaCorrection) : Prop :=
  config.maxIngressWriteUnitsPerUtcDay < state.admittedUnits utcDay +
    catalog.ingressWriteUnitsFor (chargedRetry retry source) +
    Reserve.outstandingOthers config.reserves (state.laneUnits utcDay)
      (schemaRetryPurpose catalog source)

variable {reply : SchemaRetryReply} {freshId sourceId : String}

/-- A correction charges its lane only where it leaves the others their reserves,
and is refused for them only where it does not. -/
theorem schemaRetry_charges {retry : SchemaCorrection} (today : currentUtcDay now = utcDay)
    (early : 12 * msPerHour < msUntilRollover now)
    (call : schemaRetry config catalog now rowBudget freshId sourceId retry state =
      some (after, reply)) :
    (after.admittedUnits utcDay = state.admittedUnits utcDay ∧
        after.laneUnits utcDay = state.laneUnits utcDay ∧
        (reply = .ingressWriteBudgetReserved → ∃ source,
          state.tables.jobs.get? sourceId = some source ∧
            RefusesRetry config catalog utcDay state source retry)) ∨
      ∃ source, state.tables.jobs.get? sourceId = some source ∧
        ¬ RefusesRetry config catalog utcDay state source retry ∧
        after.admittedUnits utcDay = state.admittedUnits utcDay +
          catalog.ingressWriteUnitsFor (chargedRetry retry source) ∧
        after.laneUnits utcDay = Reserve.spend (state.laneUnits utcDay)
          (schemaRetryPurpose catalog source)
          (catalog.ingressWriteUnitsFor (chargedRetry retry source)) ∧
        reply = .accepted freshId := by
  unfold schemaRetry at call
  cases existing : rowWithKey state.tables.jobs ("schema-correction-v2:" ++ sourceId) with
  | some row =>
      rw [existing] at call
      dsimp only at call
      split at call <;> cases call <;> exact .inl ⟨rfl, rfl, fun same => by cases same⟩
  | none =>
      rw [existing] at call
      cases found : state.tables.jobs.get? sourceId with
      | none =>
          rw [found] at call
          cases call
          exact .inl ⟨rfl, rfl, fun same => by cases same⟩
      | some source =>
          rw [found] at call
          dsimp only at call
          by_cases unfinished : source.state ≠ .completed
          · rw [if_pos unfinished] at call
            cases call
            exact .inl ⟨rfl, rfl, fun same => by cases same⟩
          rw [if_neg unfinished] at call
          have begun := beginRetry_scheduler today state
          generalize (state.rollUtcDayIfNeeded now).ensureQueuedJobCounter = ready at call begun
          obtain ⟨day, units, ledger⟩ := begun
          have admitted : ready.admittedUnits utcDay = state.admittedUnits utcDay :=
            (if_pos day).trans units
          have lanes : ready.laneUnits utcDay = state.laneUnits utcDay := by
            unfold Coordinator.laneUnits
            rw [ledger]
          have usage : unitsUsed (usageToday ready.ingressPurpose ready.scheduler.utcDay) =
              state.laneUnits utcDay := by
            rw [day]
            exact lanes
          have withheld : withheldFor config
              (usageToday ready.ingressPurpose ready.scheduler.utcDay)
              (schemaRetryPurpose catalog source) now =
                Reserve.outstandingOthers config.reserves (state.laneUnits utcDay)
                  (schemaRetryPurpose catalog source) := by
            unfold withheldFor
            rw [withheldReservationUnits_early early, usage]
          cases refusal : schemaRetryRejection config catalog rowBudget now ready source retry with
          | some reason =>
              rw [refusal] at call
              cases call
              refine .inl ⟨admitted, lanes, ?_⟩
              rintro rfl
              refine ⟨source, rfl, ?_⟩
              unfold schemaRetryRejection at refusal
              dsimp only at refusal
              split at refusal
              · cases refusal
              split at refusal
              · cases refusal
              split at refusal
              · cases refusal
              split at refusal
              · cases refusal
              split at refusal
              · cases refusal
              split at refusal
              · next exceeds =>
                rwa [withheld, units] at exceeds
              · cases refusal
          | none =>
              rw [refusal] at call
              obtain ⟨written, admittedRetry, same⟩ := Option.map_eq_some_iff.mp call
              cases same
              obtain ⟨tables, _, rfl⟩ := Option.map_eq_some_iff.mp admittedRetry
              refine .inr ⟨source, rfl, ?_, ?_, ?_, rfl⟩
              · unfold schemaRetryRejection at refusal
                dsimp only at refusal
                split at refusal
                · cases refusal
                split at refusal
                · cases refusal
                split at refusal
                · cases refusal
                split at refusal
                · cases refusal
                split at refusal
                · cases refusal
                split at refusal
                · cases refusal
                · next within =>
                  rwa [withheld, units] at within
              · show (if ready.scheduler.utcDay = utcDay then _ else 0) = _
                rw [if_pos day]
                exact congrArg (· + catalog.ingressWriteUnitsFor (chargedRetry retry source)) units
              · funext purpose
                show unitsUsed (usageToday (upsertUsage ready.ingressPurpose
                  ready.scheduler.utcDay [_]) utcDay) purpose = _
                rw [day, unitsUsed_upsertUsage (by simp [Dict.keys]), ← lanes]
                unfold Reserve.spend Coordinator.laneUnits
                by_cases same : purpose = schemaRetryPurpose catalog source
                · rw [if_pos same, same]
                  simp [unitsUsed, usageOf, Dict.get?]
                · rw [if_neg same]
                  simp [unitsUsed, usageOf, Dict.get?, Ne.symm same]

theorem Coordinator.ReservesHold.retry
    {retry : SchemaCorrection} (today : currentUtcDay now = utcDay)
    (early : 12 * msPerHour < msUntilRollover now) (holds : state.ReservesHold config utcDay)
    (call : schemaRetry config catalog now rowBudget freshId sourceId retry state =
      some (after, reply)) : after.ReservesHold config utcDay := by
  rcases schemaRetry_charges today early call with
    ⟨units, lanes, _⟩ | ⟨source, _, passed, units, lanes, _⟩
  · unfold Coordinator.ReservesHold
    rwa [units, lanes]
  · unfold Coordinator.ReservesHold
    rw [units, lanes]
    exact Reserve.accept config.reserves_nodup holds (not_lt.mp passed)

/-! ### The run -/

theorem IngressRun.reservesHold
    (reservable : config.reserves.values.sum ≤ config.maxIngressWriteUnitsPerUtcDay)
    (run : IngressRun config catalog utcDay state) : state.ReservesHold config utcDay := by
  induction run with
  | opens state unspent unused =>
      have nothing : state.laneUnits utcDay = fun _ => 0 := funext unused
      unfold Coordinator.ReservesHold
      rw [unspent, nothing, zero_add]
      exact reservable
  | enqueueBatch _ today early call induction => exact induction.batch today early call
  | schemaRetry _ today early call induction => exact induction.retry today early call
  | elsewhere _ units lanes induction =>
      unfold Coordinator.ReservesHold
      rwa [units, lanes]

/-- Reservations hold. In every state of the day the admitted units and all unused
reservations fit the budget, and a lane is never refused for the reservations of
the others what it has left of its own. -/
theorem ingress_reservations_hold (config : IngressConfig) (catalog : LaneCatalog) (utcDay : ℤ)
    (state : Coordinator)
    (reservable : config.reserves.values.sum ≤ config.maxIngressWriteUnitsPerUtcDay)
    (run : IngressRun config catalog utcDay state) :
    state.admittedUnits utcDay +
        (config.reserves.map fun lane => lane.2 - state.laneUnits utcDay lane.1).sum ≤
      config.maxIngressWriteUnitsPerUtcDay ∧
    ∀ now, currentUtcDay now = utcDay → 12 * msPerHour < msUntilRollover now →
      (∀ rowBudget before job progress next reserve,
        enqueueJobs config catalog (batchContext now rowBudget (beginBatch now state))
          (batchStart (beginBatch now state)) before = some progress →
        enqueueJob config catalog (batchContext now rowBudget (beginBatch now state)) progress
          job = some next →
        config.reserves.get? (catalog.purposeForJob (job.row now)) = some reserve →
        unitsUsed progress.purposeUsage (catalog.purposeForJob (job.row now)) +
          catalog.ingressWriteUnitsFor (job.row now) ≤ reserve →
        next.rejected ≠ progress.rejected ++ [(job.id, .ingressWriteBudgetReserved)]) ∧
      (∀ rowBudget freshId sourceId retry source after reply reserve,
        schemaRetry config catalog now rowBudget freshId sourceId retry state =
          some (after, reply) →
        state.tables.jobs.get? sourceId = some source →
        config.reserves.get? (schemaRetryPurpose catalog source) = some reserve →
        state.laneUnits utcDay (schemaRetryPurpose catalog source) +
          catalog.ingressWriteUnitsFor (chargedRetry retry source) ≤ reserve →
        reply ≠ .ingressWriteBudgetReserved) := by
  have holds := run.reservesHold reservable
  refine ⟨holds, ?_⟩
  intro now today early
  constructor
  · intro rowBudget before job progress next reserve steps step registered left
    have charged := enqueueJobs_charges
      (batchContext now rowBudget (beginBatch now state)) early
      (batchStart_within today holds) (batchStart_matches _) steps
    exact charged.1.not_refused early step registered left
  · intro rowBudget freshId sourceId retry source after reply reserve call found registered left
    rintro rfl
    have fits := Reserve.fits_of_reserve config.reserves_nodup holds registered left
    rcases schemaRetry_charges today early call with
      ⟨_, _, refused⟩ | ⟨_, _, _, _, _, accepted⟩
    · obtain ⟨other, same, refuses⟩ := refused rfl
      rw [found, Option.some.injEq] at same
      subst same
      exact absurd fits (not_le.mpr refuses)
    · cases accepted

end

/-! ### A morning of two lanes -/

def twoLanes : IngressConfig where
  configuredWriteUnits := some 20
  reservations :=
    { lanes := [("tagger", { reservedWriteUnits := 12 }), ("judge", { reservedWriteUnits := 8 })]
      nodup := by decide }
  maxQueuedJobs := 100
  enqueueRowStop := 10000

def oneModelCatalog : LaneCatalog where
  modelsForQueuedJob _ := ["model"]
  purposeForJob := JobRow.purpose
  modelsOutsideLane _ _ := []
  routeIdsOutsideModelPool _ := []
  backupThresholdBelowLaneMinimum _ _ := false

def laneJob (id purpose : String) : Submission where
  id := id
  idempotencyKey := "key-" ++ id
  requestDigest := "digest-" ++ id
  purpose := purpose

def smallRows : RowBudget := ⟨0, 3 / 2⟩

def emptyCoordinator : Coordinator := .fresh (.legacy []) none 0

/-- Five jobs of one lane, of which its reserve pays for three and none beyond. -/
def taggerBatch : List Submission :=
  ["a", "b", "c", "d", "e"].map fun id => laneJob id "tagger"

def taggerMorning : Option (Coordinator × BatchReply) :=
  enqueueBatch twoLanes oneModelCatalog 1000 smallRows taggerBatch emptyCoordinator

theorem taggerMorning_isSome : taggerMorning.isSome = true := by decide +kernel

def morningCoordinator : Coordinator := (taggerMorning.get taggerMorning_isSome).1

theorem morning_run : IngressRun twoLanes oneModelCatalog 0 morningCoordinator := by
  have today : currentUtcDay 1000 = 0 := by decide +kernel
  exact .enqueueBatch (.opens emptyCoordinator (by decide) fun _ => rfl) today
    (by decide +kernel) (Option.some_get taggerMorning_isSome).symm

def judgeContext : BatchContext :=
  batchContext 2000 smallRows (beginBatch 2000 morningCoordinator)

def judgeStart : BatchProgress := batchStart (beginBatch 2000 morningCoordinator)

def judgeNext : Option BatchProgress :=
  enqueueJob twoLanes oneModelCatalog judgeContext judgeStart (laneJob "j" "judge")

theorem judgeNext_isSome : judgeNext.isSome = true := by decide +kernel

theorem ingress_reservations_hold_morning :
    (judgeNext.get judgeNext_isSome).rejected ≠
      judgeStart.rejected ++ [("j", .ingressWriteBudgetReserved)] :=
  ((ingress_reservations_hold twoLanes oneModelCatalog 0 morningCoordinator (by decide)
    morning_run).2 2000 (by decide +kernel) (by decide +kernel)).1 smallRows []
      (laneJob "j" "judge") judgeStart (judgeNext.get judgeNext_isSome) 8 rfl
      (Option.some_get judgeNext_isSome).symm (by decide +kernel) (by decide +kernel)

end CityPods.Dispatch
