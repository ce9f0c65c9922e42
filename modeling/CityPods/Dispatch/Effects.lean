import CityPods.Dispatch.Ingress
import CityPods.Dispatch.Lifecycle
import CityPods.Dispatch.Moves
import CityPods.Dispatch.Retries

/-! # What the operations move

Every operation but the claim, as moves of single job rows with the count of the
queued jobs beside them.
-/

namespace CityPods.Dispatch

open Foundation

def Coordinator.counted (state : Coordinator) : CountedTables :=
  ⟨state.tables, state.scheduler.queuedJobCount⟩

structure Coordinator.Counted (state : Coordinator) : Prop where
  initialized : state.scheduler.queuedJobCountInitialized = true
  exact : state.scheduler.queuedJobCount = state.tables.queuedJobs

variable {state : Coordinator}

theorem Coordinator.ensureQueuedJobCounter_eq
    (initialized : state.scheduler.queuedJobCountInitialized = true) :
    state.ensureQueuedJobCounter = state :=
  if_pos initialized

@[simp] theorem Coordinator.rollUtcDayIfNeeded_counted (now : ℚ) (state : Coordinator) :
    (state.rollUtcDayIfNeeded now).counted = state.counted := by
  unfold Coordinator.counted
  rw [rollUtcDayIfNeeded_tables]
  exact congrArg _ (Scheduler.rollUtcDayIfNeeded_queuedJobCount now state.scheduler)

variable {tables : JobTables} {row : JobRow}

theorem rowWithKey_found (coherent : tables.Coherent) {idempotencyKey : String}
    (found : rowWithKey tables.jobs idempotencyKey = some row) :
    tables.jobs.get? row.id = some row ∧ row.idempotencyKey = idempotencyKey := by
  have keyed : row.idempotencyKey = idempotencyKey := of_decide_eq_true
    (List.find?_some (p := fun row : JobRow => decide (row.idempotencyKey = idempotencyKey)) found)
  obtain ⟨⟨jobId, other⟩, member, same⟩ := List.mem_map.mp (List.mem_of_find?_eq_some found)
  have present := Dict.get?_of_mem coherent.nodup member
  rw [show other = row from same] at present
  refine ⟨?_, keyed⟩
  rwa [coherent.named jobId row present]

/-! ## Ingress -/

/-- A row is inserted into the queue, or put back into it under a new submission. -/
def Change.Submitted : Change → Prop :=
  Change.Passes
    [none, some .queued, some .completed, some .retryable, some .failed, some .purgePending]
    [some .queued]

def BatchProgress.counted (progress : BatchProgress) : CountedTables :=
  ⟨progress.tables, progress.queuedAdded⟩

section

variable {config : IngressConfig} {catalog : LaneCatalog} {context : BatchContext}
  {progress next : BatchProgress} {job : Submission}

@[simp] theorem tables_countPurposeQueued (progress : BatchProgress) (purpose : String)
    (cap : Nat) :
    (progress.countPurposeQueued purpose cap).counted = progress.counted := by
  unfold BatchProgress.countPurposeQueued
  split <;> rfl

theorem supersedeRow_moves {submitted : JobRow} {purpose : String}
    (coherent : progress.tables.Coherent) (found : progress.tables.jobs.get? row.id = some row)
    (idle : ¬ (row.state = .leased ∨ row.state = .unknownAttempt))
    (step : supersedeRow config catalog context progress row job submitted purpose = some next) :
    CountedTables.Moves Change.Submitted progress.counted next.counted := by
  unfold supersedeRow at step
  cases refusal : supersedeRejection config context progress row purpose
      (catalog.ingressWriteUnitsFor submitted) with
  | some reason =>
      rw [refusal] at step
      cases step
      exact .refl _ _
  | none =>
      rw [refusal] at step
      obtain ⟨tables, superseded, rfl⟩ := Option.map_eq_some_iff.mp step
      have writes : JobTables.Writes
          ((job.supersedes row purpose context.now).inQueue (catalog.modelsToIndex submitted))
          progress.tables tables :=
        coherent.supersede (catalog.modelsToIndex_ne_nil submitted) found
          (fun leased => idle (.inl leased)) superseded
      have source : some row.state ∈ [none, some .queued, some .completed, some .retryable,
          some .failed, some .purgePending] := by
        cases state : row.state <;> simp_all
      have counts : ((progress.superseding row purpose
          (4 * catalog.ingressWriteUnitsFor submitted) tables).queuedAdded : ℤ) =
          progress.queuedAdded + (1 - queuedUnit row) := by
        unfold BatchProgress.superseding
        by_cases queued : row.state = .queued
        · rw [if_pos queued, queuedUnit_of_eq queued, sub_self, add_zero]
        · rw [if_neg queued, queuedUnit_of_ne queued, sub_zero]
          push_cast
          rfl
      have written : ((progress.superseding row purpose
          (4 * catalog.ingressWriteUnitsFor submitted) tables).accept
            ⟨row.id, job.id, true⟩).tables = tables := by
        unfold BatchProgress.superseding
        split <;> rfl
      rw [← written] at writes
      exact (Tallied.Moves.rewrite writes found source List.mem_cons_self counts).mono
        fun _ both => both.2

theorem supersedeJob_moves (coherent : progress.tables.Coherent)
    (found : progress.tables.jobs.get? row.id = some row)
    (idle : ¬ (row.state = .leased ∨ row.state = .unknownAttempt))
    (step : supersedeJob config catalog context progress row job = some next) :
    CountedTables.Moves Change.Submitted progress.counted next.counted := by
  unfold supersedeJob at step
  dsimp only at step
  cases lane : laneRejection config catalog { job.row context.now with id := row.id }
      (catalog.purposeForJob { job.row context.now with id := row.id }) with
  | some reason =>
      rw [lane] at step
      cases step
      exact .refl _ _
  | none =>
      rw [lane] at step
      by_cases queued : row.state = .queued
      · simp only [queued, if_true] at step
        exact supersedeRow_moves coherent found idle step
      simp only [queued, if_false] at step
      cases full : queueFull config context progress with
      | true =>
          simp only [full, if_true] at step
          cases step
          exact .refl _ _
      | false =>
          simp only [full, Bool.false_eq_true, if_false] at step
          have same := tables_countPurposeQueued progress
            (catalog.purposeForJob { job.row context.now with id := row.id })
            (config.maxQueuedJobsOf
              (catalog.purposeForJob { job.row context.now with id := row.id }))
          generalize progress.countPurposeQueued _ _ = ready at step same
          have tables : ready.tables = progress.tables := congrArg Tallied.tables same
          rw [← same]
          rw [← tables] at coherent found
          exact supersedeRow_moves coherent found idle step

theorem insertJob_moves (coherent : progress.tables.Coherent)
    (step : insertJob config catalog context progress job = some next) :
    CountedTables.Moves Change.Submitted progress.counted next.counted := by
  unfold insertJob at step
  dsimp only at step
  have same := tables_countPurposeQueued progress (catalog.purposeForJob (job.row context.now))
    (config.maxQueuedJobsOf (catalog.purposeForJob (job.row context.now)))
  cases lane : insertRejection config catalog context progress (job.row context.now)
      (catalog.purposeForJob (job.row context.now)) with
  | some reason =>
      rw [lane] at step
      cases step
      exact .refl _ _
  | none =>
      rw [lane] at step
      dsimp only at step
      generalize progress.countPurposeQueued _ _ = ready at step same
      have tables : ready.tables = progress.tables := congrArg Tallied.tables same
      rw [← same]
      rw [← tables] at coherent
      unfold insertRow at step
      dsimp only at step
      cases refusal : budgetRejection config context ready
          (catalog.purposeForJob (job.row context.now))
          (catalog.ingressWriteUnitsFor (job.row context.now)) with
      | some reason =>
          rw [refusal] at step
          cases step
          exact .refl _ _
      | none =>
          rw [refusal] at step
          obtain ⟨inserted, written, rfl⟩ := Option.map_eq_some_iff.mp step
          obtain ⟨absent, writes⟩ := coherent.insertQueued
            (catalog.modelsToIndex_ne_nil (job.row context.now)) written
          have counts : ((ready.queuedAdded + 1 : ℕ) : ℤ) = ready.queuedAdded + (1 - 0) := by
            push_cast
            ring
          exact (Tallied.Moves.rewrite writes absent List.mem_cons_self List.mem_cons_self
            counts).mono fun _ both => both.2

theorem enqueueJob_moves (coherent : progress.tables.Coherent)
    (step : enqueueJob config catalog context progress job = some next) :
    CountedTables.Moves Change.Submitted progress.counted next.counted := by
  unfold enqueueJob at step
  cases found : rowWithKey progress.tables.jobs job.idempotencyKey with
  | some row =>
      rw [found] at step
      dsimp only at step
      by_cases replay : row.requestDigest = job.requestDigest
      · rw [if_pos replay] at step
        cases step
        exact .refl _ _
      rw [if_neg replay] at step
      by_cases closed : rowBudgetClosed config context
      · rw [if_pos closed] at step
        cases step
        exact .refl _ _
      rw [if_neg closed] at step
      by_cases running : row.state = .leased ∨ row.state = .unknownAttempt
      · rw [if_pos running] at step
        cases step
        exact .refl _ _
      rw [if_neg running] at step
      exact supersedeJob_moves coherent (rowWithKey_found coherent found).1 running step
  | none =>
      rw [found] at step
      dsimp only at step
      by_cases closed : rowBudgetClosed config context
      · rw [if_pos closed] at step
        cases step
        exact .refl _ _
      rw [if_neg closed] at step
      exact insertJob_moves coherent step

end

variable {now : ℚ} {config : IngressConfig} {catalog : LaneCatalog} {rowBudget : RowBudget}
variable {after : Coordinator}

theorem enqueueBatch_moves {batch : List Submission}
    {reply : BatchReply} (coherent : state.tables.Coherent)
    (initialized : state.scheduler.queuedJobCountInitialized = true)
    (step : enqueueBatch config catalog now rowBudget batch state = some (after, reply)) :
    CountedTables.Moves Change.Submitted state.counted after.counted := by
  unfold enqueueBatch at step
  obtain ⟨progress, ran, committed⟩ := Option.map_eq_some_iff.mp step
  cases committed
  unfold enqueueJobs at ran
  have start : (batchStart (beginBatch now state)).counted.tables.Coherent := by
    show (beginBatch now state).tables.Coherent
    unfold beginBatch
    rwa [Coordinator.rollUtcDayIfNeeded_tables, Coordinator.ensureQueuedJobCounter_tables]
  have moved : CountedTables.Moves Change.Submitted (batchStart (beginBatch now state)).counted
      progress.counted :=
    .foldlM BatchProgress.counted (fun _ _ _ _ coherent step => enqueueJob_moves coherent step)
      start ran
  obtain ⟨changes, edits, permitted, counted⟩ := moved
  have begun : (beginBatch now state).counted = state.counted := by
    unfold beginBatch
    rw [Coordinator.rollUtcDayIfNeeded_counted,
      Coordinator.ensureQueuedJobCounter_eq initialized]
  refine ⟨changes, ?_, permitted, ?_⟩
  · rw [← begun]
    exact edits
  · rw [← begun]
    show (beginBatch now state).scheduler.queuedJobCount + progress.queuedAdded = _
    have added : (progress.queuedAdded : ℤ) = 0 + _ := counted
    rw [added, zero_add]
    rfl

theorem schemaRetry_moves {freshId sourceId : String} {retry : SchemaCorrection}
    {reply : SchemaRetryReply} (coherent : state.tables.Coherent)
    (initialized : state.scheduler.queuedJobCountInitialized = true)
    (step : schemaRetry config catalog now rowBudget freshId sourceId retry state =
      some (after, reply)) :
    CountedTables.Moves Change.Submitted state.counted after.counted := by
  unfold schemaRetry at step
  cases existing : rowWithKey state.tables.jobs ("schema-correction-v2:" ++ sourceId) with
  | some row =>
      rw [existing] at step
      dsimp only at step
      split at step <;> cases step <;> exact .refl _ _
  | none =>
      rw [existing] at step
      dsimp only at step
      cases found : state.tables.jobs.get? sourceId with
      | none =>
          rw [found] at step
          cases step
          exact .refl _ _
      | some source =>
          rw [found] at step
          dsimp only at step
          by_cases other : source.state ≠ .completed
          · rw [if_pos other] at step
            cases step
            exact .refl _ _
          rw [if_neg other] at step
          have initialized' : (state.rollUtcDayIfNeeded now).scheduler.queuedJobCountInitialized =
              true := by
            show (state.scheduler.rollUtcDayIfNeeded now).queuedJobCountInitialized = true
            unfold Scheduler.rollUtcDayIfNeeded
            split <;> exact initialized
          rw [Coordinator.ensureQueuedJobCounter_eq initialized'] at step
          have begun := state.rollUtcDayIfNeeded_counted now
          rw [← begun]
          have coherent' : (state.rollUtcDayIfNeeded now).tables.Coherent := coherent
          generalize state.rollUtcDayIfNeeded now = start at step coherent'
          cases refusal : schemaRetryRejection config catalog rowBudget now start source retry with
          | some reason =>
              rw [refusal] at step
              cases step
              exact .refl _ _
          | none =>
              rw [refusal] at step
              obtain ⟨admitted, ran, same⟩ := Option.map_eq_some_iff.mp step
              cases same
              unfold admitRetry at ran
              obtain ⟨tables, inserted, rfl⟩ := Option.map_eq_some_iff.mp ran
              obtain ⟨absent, writes⟩ := coherent'.insertQueued
                (catalog.modelsToIndex_ne_nil _) inserted
              have counts : start.scheduler.queuedJobCount + 1 =
                  start.scheduler.queuedJobCount + (1 - 0) := by ring
              exact (Tallied.Moves.rewrite writes absent List.mem_cons_self List.mem_cons_self
                counts).mono fun _ both => both.2

/-! ## The end of a job -/

/-- A row of these jobs, of which `held` says what it was, goes to the purge. -/
structure Change.Purged (held : String → JobRow → Prop) (change : Change) : Prop where
  held : ∀ row ∈ change.before, held change.jobId row
  present : change.before.isSome
  target : change.after.map JobRow.state = some .purgePending

/-- A row, of which `held` says what it was, is deleted. -/
structure Change.Removed (held : String → JobRow → Prop) (change : Change) : Prop where
  held : ∀ row ∈ change.before, held change.jobId row
  present : change.before.isSome
  target : change.after = none

theorem JobRow.purgePendingAt_ne_queued (row : JobRow) (now : ℚ) :
    (row.purgePendingAt now).state ≠ .queued := by
  rintro ⟨⟩

theorem JobRow.purgePendingAt_ne_leased (row : JobRow) (now : ℚ) :
    (row.purgePendingAt now).state ≠ .leased := by
  rintro ⟨⟩

section

variable {held : String → JobRow → Prop}

theorem purgeJobs_moves (now : ℚ) {jobIds : List String} (queued : ℤ)
    (coherent : tables.Coherent) (distinct : jobIds.Nodup)
    (holds : ∀ jobId ∈ jobIds, ∀ row, tables.jobs.get? jobId = some row →
      held jobId row ∧ row.state ≠ .queued ∧ row.state ≠ .leased) :
    CountedTables.Moves (Change.Purged held) ⟨tables, queued⟩
      ⟨purgeJobs now tables jobIds, queued⟩ := by
  induction jobIds generalizing tables with
  | nil => exact .refl _ _
  | cons jobId rest induction =>
      have parts := List.nodup_cons.mp distinct
      show CountedTables.Moves _ _ ⟨purgeJobs now (purgeJob now tables jobId) rest, queued⟩
      cases found : tables.jobs.get? jobId with
      | none =>
          have same : purgeJob now tables jobId = tables := by
            rw [purgeJob, found]
          rw [same]
          exact induction coherent parts.2 fun other member =>
            holds other (List.mem_cons_of_mem _ member)
      | some row =>
          obtain ⟨here, notQueued, notLeased⟩ := holds jobId List.mem_cons_self row found
          have named := coherent.named jobId row found
          have foundRow : tables.jobs.get? row.id = some row := by rwa [named]
          have writes : JobTables.Writes (row.purgePendingAt now) tables
              (purgeJob now tables jobId) := by
            rw [purgeJob, found]
            exact coherent.writeIdle foundRow notQueued notLeased (row.purgePendingAt_ne_queued now)
              (row.purgePendingAt_ne_leased now)
          have first : CountedTables.Moves (Change.Purged held) ⟨tables, queued⟩
              ⟨purgeJob now tables jobId, queued⟩ := by
            refine .write writes ⟨?_, ?_, rfl⟩ ?_
            · intro other member
              rw [show tables.jobs.get? (row.purgePendingAt now).id = some row from foundRow] at member
              cases member
              show held row.id row
              rwa [named]
            · show (tables.jobs.get? row.id).isSome
              rw [foundRow]
              rfl
            · show queued = queued + (0 - (tables.jobs.get? row.id).elim 0 queuedUnit)
              rw [foundRow, Option.elim_some, queuedUnit_of_ne notQueued]
              ring
          refine first.trans (induction (writes.coherent coherent) parts.2 ?_)
          intro other member before present
          have different : other ≠ (row.purgePendingAt now).id := by
            rw [show (row.purgePendingAt now).id = jobId from named]
            rintro rfl
            exact parts.1 member
          rw [writes.jobs, Dict.get?_set_other _ _ different] at present
          exact holds other (List.mem_cons_of_mem _ member) before present

/-- Idle rows are deleted one by one. -/
theorem deleteJobs_moves {jobIds : List String} (queued : ℤ) (coherent : tables.Coherent)
    (holds : ∀ jobId ∈ jobIds, ∀ row, tables.jobs.get? jobId = some row →
      held jobId row ∧ row.state ≠ .queued ∧ row.state ≠ .leased) :
    CountedTables.Moves (Change.Removed held) ⟨tables, queued⟩
      ⟨deleteJobs tables jobIds, queued⟩ := by
  induction jobIds generalizing tables with
  | nil => exact .refl _ _
  | cons jobId rest induction =>
      show CountedTables.Moves _ _ ⟨deleteJobs (tables.deleteRow jobId) rest, queued⟩
      cases found : tables.jobs.get? jobId with
      | none =>
          have same : tables.deleteRow jobId = tables := by
            rw [JobTables.deleteRow, Dict.erase_of_none found]
          rw [same]
          exact induction coherent fun other member =>
            holds other (List.mem_cons_of_mem _ member)
      | some row =>
          obtain ⟨here, notQueued, notLeased⟩ := holds jobId List.mem_cons_self row found
          have first : CountedTables.Moves (Change.Removed held) ⟨tables, queued⟩
              ⟨tables.deleteRow jobId, queued⟩ := by
            refine ⟨_, .delete_one found notQueued notLeased, ?_, ?_⟩
            · intro change member
              rw [List.mem_singleton.mp member]
              refine ⟨?_, rfl, rfl⟩
              rintro _ ⟨⟩
              exact here
            · rw [JobTables.Edits.gain_singleton, Option.elim_none, Option.elim_some,
                queuedUnit_of_ne notQueued]
              ring
          refine first.trans (induction (coherent.deleteRow found notQueued notLeased) ?_)
          intro other member before present
          simp only [JobTables.deleteRow, Dict.get?_erase] at present
          split at present
          · cases present
          · exact holds other (List.mem_cons_of_mem _ member) before present

end

/-! ### Cancelling -/

/-- One of these jobs that is not in flight goes to the purge. -/
def Change.Cancelled (jobIds : List String) (change : Change) : Prop :=
  change.jobId ∈ jobIds ∧
    change.Passes [some .queued, some .completed, some .retryable, some .failed]
      [some .purgePending]

def CancelProgress.counted (progress : CancelProgress) : CountedTables :=
  ⟨progress.tables, -progress.cancelledQueued⟩

variable {jobIds : List String} {jobId : String}

theorem cancelJob_moves (named : jobId ∈ jobIds) {progress next : CancelProgress}
    (coherent : progress.tables.Coherent) (step : cancelJob now progress jobId = some next) :
    CountedTables.Moves (Change.Cancelled jobIds) progress.counted next.counted := by
  unfold cancelJob at step
  cases found : progress.tables.jobs.get? jobId with
  | none =>
      rw [found] at step
      cases step
      exact .refl _ _
  | some row =>
      rw [found] at step
      dsimp only at step
      have same := coherent.named jobId row found
      have foundRow : progress.tables.jobs.get? row.id = some row := by rwa [same]
      have listed : (row.purgePendingAt now).id ∈ jobIds := by
        rw [show (row.purgePendingAt now).id = jobId from same]
        exact named
      have idle (notQueued : row.state ≠ .queued) (notLeased : row.state ≠ .leased)
          (source : some row.state ∈ [some JobState.queued, some .completed, some .retryable,
            some .failed]) :
          CountedTables.Moves (Change.Cancelled jobIds) progress.counted
            ⟨progress.tables.writeRow (row.purgePendingAt now), -progress.cancelledQueued⟩ := by
        have writes : JobTables.Writes (row.purgePendingAt now) progress.tables
            (progress.tables.writeRow (row.purgePendingAt now)) :=
          coherent.writeIdle foundRow notQueued notLeased (row.purgePendingAt_ne_queued now)
            (row.purgePendingAt_ne_leased now)
        have counts : -(progress.cancelledQueued : ℤ) = -progress.cancelledQueued +
            (queuedUnit (row.purgePendingAt now) - (some row).elim 0 queuedUnit) := by
          rw [Option.elim_some, queuedUnit_of_ne notQueued,
            queuedUnit_of_ne (row.purgePendingAt_ne_queued now)]
          ring
        exact (Tallied.Moves.rewrite writes foundRow source List.mem_cons_self counts).mono
          fun change both => ⟨both.1 ▸ listed, both.2⟩
      cases state : row.state with
      | leased | unknownAttempt | purgePending =>
          rw [state] at step
          cases step
          exact .refl _ _
      | queued =>
          rw [state] at step
          obtain ⟨tables, withdrawn, rfl⟩ := Option.map_eq_some_iff.mp step
          obtain ⟨after, ran, writes⟩ := coherent.withdraw foundRow state
            (show (row.purgePendingAt now).id = row.id from rfl)
            (row.purgePendingAt_ne_queued now) (row.purgePendingAt_ne_leased now)
          rw [ran, Option.some.injEq] at withdrawn
          subst withdrawn
          have source : (some row).map JobRow.state ∈ [some JobState.queued, some .completed,
              some .retryable, some .failed] := by
            rw [Option.map_some, state]
            exact List.mem_cons_self
          have counts : -((progress.cancelledQueued + 1 : ℕ) : ℤ) = -progress.cancelledQueued +
              (queuedUnit (row.purgePendingAt now) - (some row).elim 0 queuedUnit) := by
            rw [Option.elim_some, queuedUnit_of_eq state,
              queuedUnit_of_ne (row.purgePendingAt_ne_queued now)]
            push_cast
            ring
          exact (Tallied.Moves.rewrite writes foundRow source List.mem_cons_self counts).mono
            fun change both => ⟨both.1 ▸ listed, both.2⟩
      | completed | retryable | failed =>
          rw [state] at step
          cases step
          exact idle (by rw [state]; decide) (by rw [state]; decide) (by rw [state]; decide)

theorem cancelBatch_moves {rowsSpent : Bool}
    {reply : CancelReply} (coherent : state.tables.Coherent) (counted : state.Counted)
    (step : cancelBatch now rowsSpent jobIds state = some (after, reply)) :
    CountedTables.Moves (Change.Cancelled jobIds) state.counted after.counted := by
  unfold cancelBatch at step
  cases rowsSpent with
  | true =>
      cases step
      exact .refl _ _
  | false =>
      rw [Coordinator.ensureQueuedJobCounter_eq counted.initialized] at step
      obtain ⟨progress, ran, committed⟩ := Option.map_eq_some_iff.mp step
      cases committed
      let start : CancelProgress := { tables := state.tables }
      have begun : start.counted.tables.Coherent := coherent
      have moved : CountedTables.Moves (Change.Cancelled jobIds) start.counted progress.counted :=
        .foldlM CancelProgress.counted (fun jobId member _ _ coherent step =>
          cancelJob_moves (List.mem_dedup.mp member) coherent step) begun ran
      have balanced := moved.balanced coherent
      obtain ⟨changes, edits, permitted, followed⟩ := moved
      refine ⟨changes, edits, permitted, ?_⟩
      have nonneg := progress.tables.queuedJobs_nonneg
      have exact := counted.exact
      show (if 0 < progress.cancelledQueued then
          max 0 (state.scheduler.queuedJobCount - progress.cancelledQueued)
        else state.scheduler.queuedJobCount) = state.scheduler.queuedJobCount + _
      have gained : -(progress.cancelledQueued : ℤ) = 0 + JobTables.Edits.gain queuedUnit changes :=
        followed
      have offset : -(progress.cancelledQueued : ℤ) - progress.tables.queuedJobs =
          0 - state.tables.queuedJobs := balanced
      split <;> omega

/-! ### Results and retention -/

theorem completedIds_spec (member : jobId ∈ completedIds tables jobIds) :
    jobId ∈ jobIds ∧ ∀ row, tables.jobs.get? jobId = some row → row.state = .completed := by
  obtain ⟨listed, completed⟩ := List.mem_filter.mp member
  refine ⟨List.mem_dedup.mp listed, fun row found => ?_⟩
  rw [found] at completed
  exact Option.some.inj (of_decide_eq_true completed)

theorem ackResults_moves (now : ℚ) (rowsSpent : Bool) (jobIds : List String)
    (coherent : state.tables.Coherent) :
    CountedTables.Moves (Change.Purged fun jobId row => jobId ∈ jobIds ∧ row.state = .completed)
      state.counted (ackResults now rowsSpent jobIds state).1.counted := by
  unfold ackResults
  cases rowsSpent with
  | true => exact .refl _ _
  | false =>
      refine purgeJobs_moves now _ coherent ((List.nodup_dedup _).filter _) ?_
      intro jobId member row found
      have spec := completedIds_spec member
      have completed := spec.2 row found
      refine ⟨⟨spec.1, completed⟩, ?_, ?_⟩ <;> rw [completed] <;> decide

def consumedBy (items : List (String × Option String)) (jobId : String) (row : JobRow) : Prop :=
  row.state = .completed ∧ (jobId, row.resultKey) ∈ items

theorem retireConsumed_moves (rowsSpent : Bool) (items : List (String × Option String))
    (coherent : state.tables.Coherent) :
    CountedTables.Moves (Change.Removed (consumedBy items)) state.counted
      (retireConsumed rowsSpent items state).1.counted := by
  unfold retireConsumed
  cases rowsSpent with
  | true => exact .refl _ _
  | false =>
      refine deleteJobs_moves _ coherent ?_
      intro jobId member row found
      obtain ⟨⟨_, key⟩, kept, rfl⟩ := List.mem_map.mp member
      obtain ⟨wanted, consumed⟩ := List.mem_filter.mp kept
      unfold holdsConsumed at consumed
      rw [found] at consumed
      obtain ⟨completed, _, same⟩ := of_decide_eq_true consumed
      refine ⟨⟨completed, ?_⟩, ?_, ?_⟩
      · rw [same]
        exact (Dict.mem_update wanted).resolve_left List.not_mem_nil
      · rw [completed]
        decide
      · rw [completed]
        decide

section

variable {localeCompare : LocaleCompare} {tables : JobTables} {state : JobState}
  {test : JobRow → Bool} {limit : Nat} {row : JobRow}

theorem JobTables.Coherent.get?_of_mem_values (coherent : tables.Coherent)
    (member : row ∈ tables.jobs.values) : tables.jobs.get? row.id = some row :=
  coherent.hasKeys.mem_values.mp member

theorem JobTables.Coherent.nodup_ids (coherent : tables.Coherent) :
    (tables.jobs.values.map JobRow.id).Nodup := by
  have same : tables.jobs.values.map JobRow.id = tables.jobs.keys := by
    unfold Dict.values Dict.keys
    rw [List.map_map]
    apply List.map_congr_left
    intro entry member
    exact coherent.named entry.1 entry.2 (Dict.get?_of_mem coherent.nodup member)
  rw [same]
  exact coherent.nodup

theorem mem_oldest (member : row ∈ tables.oldest state test limit) :
    row ∈ tables.jobs.values ∧ row.state = state ∧ test row = true := by
  have sorted := List.mem_mergeSort.mp (List.mem_of_mem_take member)
  obtain ⟨stored, passed⟩ := List.mem_filter.mp sorted
  obtain ⟨same, tested⟩ := Bool.and_eq_true_iff.mp passed
  exact ⟨stored, of_decide_eq_true same, tested⟩

theorem nodup_oldest (coherent : tables.Coherent) :
    ((tables.oldest state test limit).map JobRow.id).Nodup := by
  refine List.Nodup.sublist ((List.take_sublist _ _).map _) ?_
  refine (List.Perm.nodup_iff ((List.mergeSort_perm _ _).map _)).mpr ?_
  exact coherent.nodup_ids.sublist (List.filter_sublist.map _)

theorem mem_oldestTerminal (member : row ∈ tables.oldestTerminal localeCompare test limit) :
    row ∈ tables.jobs.values ∧ (row.state = .completed ∨ row.state = .failed) ∧
      test row = true := by
  rcases List.mem_merge.mp (List.mem_of_mem_take member) with completed | failed
  · obtain ⟨stored, same, tested⟩ := mem_oldest completed
    exact ⟨stored, .inl same, tested⟩
  · obtain ⟨stored, same, tested⟩ := mem_oldest failed
    exact ⟨stored, .inr same, tested⟩

theorem nodup_oldestTerminal (coherent : tables.Coherent) :
    ((tables.oldestTerminal localeCompare test limit).map JobRow.id).Nodup := by
  refine List.Nodup.sublist ((List.take_sublist _ _).map _) ?_
  refine (List.Perm.nodup_iff ((List.merge_perm_append _).map _)).mpr ?_
  rw [List.map_append]
  refine List.nodup_append.mpr ⟨nodup_oldest coherent, nodup_oldest coherent, ?_⟩
  intro jobId completed other failed
  obtain ⟨first, member, rfl⟩ := List.mem_map.mp completed
  obtain ⟨second, inside, rfl⟩ := List.mem_map.mp failed
  intro same
  have left := coherent.get?_of_mem_values (mem_oldest member).1
  have right := coherent.get?_of_mem_values (mem_oldest inside).1
  rw [same, right, Option.some.injEq] at left
  have states := (mem_oldest member).2.1
  rw [← left, (mem_oldest inside).2.1] at states
  cases states

end

theorem purgePendingBatch_moves (localeCompare : LocaleCompare) (now retentionMs : ℚ)
    (rowsSpent : Bool) (limit : Nat) (coherent : state.tables.Coherent) :
    CountedTables.Moves
      (Change.Purged fun _ row =>
        (row.state = .completed ∨ row.state = .failed) ∧ retentionOver now retentionMs row = true)
      state.counted
      (purgePendingBatch localeCompare now retentionMs rowsSpent limit state).1.counted := by
  unfold purgePendingBatch
  cases rowsSpent with
  | true => exact .refl _ _
  | false =>
      refine purgeJobs_moves now _ coherent (nodup_oldestTerminal coherent) ?_
      intro jobId member row found
      obtain ⟨eligible, listed, rfl⟩ := List.mem_map.mp member
      obtain ⟨stored, terminal, ended⟩ := mem_oldestTerminal listed
      rw [coherent.get?_of_mem_values stored, Option.some.injEq] at found
      subst found
      refine ⟨⟨terminal, ended⟩, ?_, ?_⟩ <;> rcases terminal with same | same <;> rw [same] <;> decide

theorem confirmPurge_moves (jobIds : List String) (coherent : state.tables.Coherent) :
    CountedTables.Moves (Change.Removed fun _ row => row.state = .purgePending) state.counted
      (confirmPurge jobIds state).counted := by
  unfold confirmPurge
  refine deleteJobs_moves _ coherent ?_
  intro jobId member row found
  have passed := (List.mem_filter.mp member).2
  rw [found] at passed
  have pending : row.state = .purgePending := Option.some.inj (of_decide_eq_true passed)
  refine ⟨pending, ?_, ?_⟩ <;> rw [pending] <;> decide

/-! ### Columns of a row that keeps its state -/

/-- A row keeps every column but its priority and its attempts. -/
def Change.Adjusted (change : Change) : Prop :=
  ∃ row priority attempts, change.before = some row ∧
    change.after = some { row with priority := priority, attempts := attempts }

theorem adjust_moves (queued : ℤ) (coherent : tables.Coherent)
    (found : tables.jobs.get? row.id = some row) (priority attempts : Nat) :
    CountedTables.Moves Change.Adjusted ⟨tables, queued⟩
      ⟨tables.writeRow { row with priority := priority, attempts := attempts }, queued⟩ := by
  have writes : JobTables.Writes { row with priority := priority, attempts := attempts } tables
      (tables.writeRow { row with priority := priority, attempts := attempts }) :=
    coherent.update found rfl rfl rfl rfl
  refine .write writes ⟨row, priority, attempts, found, rfl⟩ ?_
  show queued = queued + (queuedUnit row - (tables.jobs.get? row.id).elim 0 queuedUnit)
  rw [found, Option.elim_some, sub_self, add_zero]

theorem setPriority_moves {priority : Nat}
    (coherent : state.tables.Coherent) (step : setPriority jobId priority state = some after) :
    CountedTables.Moves Change.Adjusted state.counted after.counted := by
  unfold setPriority at step
  cases found : state.tables.jobs.get? jobId with
  | none =>
      rw [found] at step
      cases step
      exact .refl _ _
  | some row =>
      rw [found] at step
      dsimp only at step
      split at step
      · cases step
      · cases step
        refine adjust_moves _ coherent ?_ priority row.attempts
        rwa [coherent.named jobId row found]

theorem grantRetry_moves (bundle : Bundle) {job : JobRow} (retryAt : ℚ)
    (coherent : state.tables.Coherent) (found : state.tables.jobs.get? job.id = some job) :
    CountedTables.Moves Change.Adjusted state.counted
      (grantRetry bundle job retryAt state).1.counted := by
  unfold grantRetry
  split
  · exact .refl _ _
  · exact adjust_moves _ coherent found job.priority (job.attempts + 1)

theorem authorizeRetry_moves (calendar : Calendar) (config : Config) (retryLimits : RetryLimits)
    (catalog : RetryCatalog) (now draw : ℚ) (request : RetryRequest)
    (coherent : state.tables.Coherent) :
    CountedTables.Moves Change.Adjusted state.counted
      (authorizeRetry calendar config retryLimits catalog now draw request state).1.counted := by
  unfold authorizeRetry
  cases held : leasedJobOf request state with
  | none => exact .refl _ _
  | some job =>
      dsimp only
      split
      · split
        · next bundle routeId _ _ =>
          have found : state.tables.jobs.get? job.id = some job := by
            have read := (Option.filter_eq_some_iff.mp held).1
            rwa [coherent.named request.jobId job read]
          unfold decideRetry
          dsimp only
          generalize learned : ({ state with routes := _ } : Coordinator) = taught
          have same : taught.counted = state.counted := by rw [← learned]; rfl
          have tables : taught.tables = state.tables := congrArg Tallied.tables same
          split
          · rw [same]
            exact .refl _ _
          · rw [← same]
            exact grantRetry_moves bundle _ (by rwa [tables]) (by rwa [tables])
        · exact .refl _ _
      · exact .refl _ _

/-! ## Completion -/

/-- A leased row is requeued, or reaches a terminal state. -/
def Change.Settled : Change → Prop :=
  Change.Passes [some .leased] [some .queued, some .completed, some .failed]

def CompletionProgress.counted (progress : CompletionProgress) : CountedTables :=
  ⟨progress.tables, progress.requeued⟩

section

variable {config : Config} {catalog : CompletionCatalog} {now : ℚ}

theorem flushRoute_counted (routeId : String) (progress : CompletionProgress) :
    (flushRoute catalog now routeId progress).counted = progress.counted := by
  unfold flushRoute
  split <;> rfl

theorem settleRoute_counted (job : JobRow) (report : Report) (progress : CompletionProgress) :
    (settleRoute config catalog now job report progress).counted = progress.counted := by
  unfold settleRoute
  split
  · rfl
  · next routeId _ =>
    show (settleOnRoute config catalog now routeId job report progress).counted = _
    unfold settleOnRoute
    split
    · rfl
    · exact flushRoute_counted routeId progress

/-- The row that a result leaves: in the queue, or in a terminal state. -/
inductive JobOutcome.Moves (row : JobRow) : JobOutcome → Prop
  | requeue {job : JobRow} {models : List String} (named : job.id = row.id)
      (nonempty : models ≠ []) : Moves row (.requeue job models)
  | settle {after : JobRow} (named : after.id = row.id)
      (terminal : after.state = .completed ∨ after.state = .failed) : Moves row (.settle after)

theorem countedJob_id (row : JobRow) (result : CallResult) : (countedJob row result).id = row.id := by
  unfold countedJob
  split <;> rfl

theorem jobOutcome_moves {estimates : Estimates} {routes : Dict String RouteLedger}
    {result : CallResult} {outcome : JobOutcome}
    (decided : jobOutcome config catalog now estimates routes row result = some outcome) :
    outcome.Moves row := by
  have named := countedJob_id row result
  have requeued : (requeuedOutcome catalog now (countedJob row result) result).Moves row :=
    .requeue named (LaneCatalog.modelsToIndex_ne_nil _ _)
  have failed : (failedOutcome catalog now (countedJob row result) result).Moves row :=
    .settle named (.inr rfl)
  unfold jobOutcome at decided
  dsimp only at decided
  cases reported : result.outcome with
  | unrecognized name =>
      rw [reported] at decided
      cases decided
  | deferredLate =>
      rw [reported] at decided
      cases decided
      exact .requeue named (LaneCatalog.modelsToIndex_ne_nil _ _)
  | success =>
      rw [reported] at decided
      dsimp only at decided
      split at decided <;> cases decided
      · exact requeued
      · exact .settle rfl (.inl rfl)
  | retryableError | terminalError =>
      rw [reported] at decided
      dsimp only at decided
      split at decided <;> cases decided
      · exact requeued
      · exact failed

variable {progress : CompletionProgress}

/-- A live result moves its own job and no other. -/
theorem settleReport_moves {report : Report}
    (coherent : progress.tables.Coherent) (found : progress.tables.jobs.get? row.id = some row)
    (leased : row.state = .leased) :
    CountedTables.Moves Change.Settled progress.counted
      (settleReport config catalog now row report progress).counted := by
  unfold settleReport
  dsimp only
  cases decided : jobOutcome config catalog now progress.estimates
      (sizeJob catalog now (countedJob row report.result) report.result progress.routes) row
      report.result with
  | none => exact .refl _ _
  | some outcome =>
      dsimp only
      rw [settleRoute_counted]
      have source : (some row).map JobRow.state ∈ [some JobState.leased] := by
        rw [Option.map_some, leased]
        exact List.mem_cons_self
      have unit : queuedUnit row = 0 := queuedUnit_of_ne (by rw [leased]; decide)
      cases jobOutcome_moves decided with
      | @requeue job models named nonempty =>
          have foundJob : progress.tables.jobs.get? job.id = some row := by rwa [named]
          have writes := coherent.requeue nonempty foundJob leased
          have counts : ((progress.requeued + 1 : ℕ) : ℤ) = progress.requeued +
              (queuedUnit (job.released.inQueue models) - (some row).elim 0 queuedUnit) := by
            rw [Option.elim_some, unit, queuedUnit_of_eq rfl]
            push_cast
            ring
          exact (Tallied.Moves.rewrite writes foundJob source List.mem_cons_self counts).mono
            fun _ both => both.2
      | @settle after named terminal =>
          have foundJob : progress.tables.jobs.get? after.id = some row := by rwa [named]
          have notQueued : after.state ≠ .queued := by
            rcases terminal with same | same <;> rw [same] <;> decide
          have notLeased : after.state ≠ .leased := by
            rcases terminal with same | same <;> rw [same] <;> decide
          have writes := coherent.settle foundJob leased notQueued notLeased
          have target : some after.state ∈ [some JobState.queued, some .completed, some .failed] := by
            rcases terminal with same | same <;> rw [same] <;> decide
          have counts : ((progress.requeued + 0 : ℕ) : ℤ) = progress.requeued +
              (queuedUnit after - (some row).elim 0 queuedUnit) := by
            rw [Option.elim_some, unit, queuedUnit_of_ne notQueued]
            push_cast
            ring
          exact (Tallied.Moves.rewrite writes foundJob source target counts).mono
            fun _ both => both.2

theorem completeReport_moves (report : Report) (coherent : progress.tables.Coherent) :
    CountedTables.Moves Change.Settled progress.counted
      (completeReport config catalog now progress report).counted := by
  unfold completeReport
  cases found : progress.tables.jobs.get? report.result.jobId with
  | none => exact .refl _ _
  | some row =>
      dsimp only
      split
      · next live =>
        refine settleReport_moves coherent ?_ live.1
        rwa [coherent.named _ row found]
      · exact .refl _ _

theorem flushAll_counted (progress : CompletionProgress) :
    (flushAll catalog now progress).counted = progress.counted := by
  unfold flushAll
  generalize progress.pending.keys = routeIds
  induction routeIds generalizing progress with
  | nil => rfl
  | cons routeId rest induction =>
      exact (induction (flushRoute catalog now routeId progress)).trans
        (flushRoute_counted routeId progress)

theorem completeReports_moves (reports : List Report) (coherent : progress.tables.Coherent) :
    CountedTables.Moves Change.Settled progress.counted
      (completeReports config catalog now reports progress).counted := by
  unfold completeReports
  rw [flushAll_counted]
  exact .foldl CompletionProgress.counted (fun report _ _ coherent =>
    completeReport_moves report coherent) coherent

theorem completeBatch_moves (bundleId executionToken : String) (reports : List Report)
    (coherent : state.tables.Coherent)
    (initialized : state.scheduler.queuedJobCountInitialized = true) :
    CountedTables.Moves Change.Settled state.counted
      (completeBatch config catalog now bundleId executionToken reports state).counted := by
  unfold completeBatch
  split
  · rw [Coordinator.ensureQueuedJobCounter_eq initialized]
    have start : (completionStart state).tables.Coherent := coherent
    have moved : CountedTables.Moves Change.Settled (completionStart state).counted
        (completeReports config catalog now reports (completionStart state)).counted :=
      completeReports_moves reports start
    obtain ⟨changes, edits, permitted, counted⟩ := moved
    refine ⟨changes, edits, permitted, ?_⟩
    have gained : ((completeReports config catalog now reports (completionStart state)).requeued :
        ℤ) = 0 + JobTables.Edits.gain queuedUnit changes := counted
    show state.scheduler.queuedJobCount + _ = state.scheduler.queuedJobCount + _
    rw [gained, zero_add]
  · exact .refl _ _

end

end CityPods.Dispatch
