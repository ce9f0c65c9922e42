import CityPods.Dispatch.Effects
import CityPods.Dispatch.Selections
import Mathlib.Algebra.Group.Prod

/-! # What a claim moves

A claim requeues the jobs of dead leases, moves queued jobs to the models of the
catalog or fails them, and leases what it chose. Its phases follow one another on
the same tables, with one count for all of them.
-/

namespace CityPods.Dispatch

open Foundation

/-! ## Dead leases -/

variable {job : JobRow}

theorem JobRow.leased_of_leaseEntry {entry : LeaseEntry}
    (registered : job.leaseEntry = some entry) :
    job.state = .leased ∧ job.bundleId = some entry.bundleId ∧
      job.leaseRouteId = some entry.leaseRouteId ∧
        job.leaseExpiresAt = some entry.leaseExpiresAt := by
  unfold JobRow.leaseEntry at registered
  split at registered
  · next leased =>
    split at registered
    · next bundle route expiry =>
      cases registered
      exact ⟨leased, bundle, route, expiry⟩
    · cases registered
  · cases registered

namespace JobTables.Coherent

variable {tables : JobTables} {entry : LeaseEntry} {jobId : String}

theorem leased_of_mem (coherent : tables.Coherent) {leases : Dict String LeaseEntry}
    (packed : tables.leases = some leases) (member : (jobId, entry) ∈ leases) :
    ∃ job, tables.jobs.get? jobId = some job ∧ job.leaseEntry = some entry := by
  have found := Dict.get?_of_mem (coherent.keyed leases packed) member
  have registered := coherent.registered jobId leases packed
  rw [found] at registered
  exact Option.bind_eq_some_iff.mp registered.symm

theorem dropStaleLeases_eq (coherent : tables.Coherent) (now : ℚ) :
    tables.dropStaleLeases now = tables := by
  have kept : tables.leases.map (fun leases => leases.filter fun entry =>
      decide (¬ (entry.2.leaseExpiresAt < now ∧
        ((tables.jobs.get? entry.1).map JobRow.state) ≠ some .leased))) = tables.leases := by
    cases packed : tables.leases with
    | none => rfl
    | some leases =>
        refine congrArg some (List.filter_eq_self.mpr ?_)
        rintro ⟨jobId, entry⟩ member
        obtain ⟨job, found, registered⟩ := coherent.leased_of_mem packed member
        have leased := (JobRow.leased_of_leaseEntry registered).1
        simp [found, leased]
  unfold JobTables.dropStaleLeases
  rw [kept]

theorem expiredLeasedJobs (coherent : tables.Coherent) (now : ℚ) :
    ((tables.expiredLeasedJobs now).map JobRow.id).Nodup ∧
      ∀ job ∈ tables.expiredLeasedJobs now,
        tables.jobs.get? job.id = some job ∧ job.state = .leased := by
  unfold JobTables.expiredLeasedJobs
  cases packed : tables.leases with
  | none =>
      refine ⟨coherent.nodup_ids.sublist (List.filter_sublist.map _), fun job member => ?_⟩
      obtain ⟨stored, expired⟩ := List.mem_filter.mp member
      exact ⟨coherent.get?_of_mem_values stored, (of_decide_eq_true expired).1⟩
  | some leases =>
      dsimp only
      have read : ∀ entry ∈ leases, ∀ job,
          (tables.jobs.get? entry.1).filter (fun job => decide (job.state = .leased)) = some job →
            job.id = entry.1 ∧ tables.jobs.get? job.id = some job ∧ job.state = .leased := by
        intro entry _ job joined
        obtain ⟨found, leased⟩ := Option.filter_eq_some_iff.mp joined
        have named := coherent.named _ _ found
        exact ⟨named, by rwa [named], of_decide_eq_true leased⟩
      refine ⟨?_, fun job member => ?_⟩
      · have listed (dead : Dict String LeaseEntry) (known : ∀ entry ∈ dead, entry ∈ leases) :
            ((dead.filterMap fun entry => (tables.jobs.get? entry.1).filter fun job =>
              decide (job.state = .leased)).map JobRow.id).Sublist dead.keys :=
          sublist_map_filterMap fun entry member job joined =>
            (read entry (known entry member) job joined).1
        refine (coherent.keyed leases packed).sublist ((listed _ ?_).trans
          (List.filter_sublist.map _))
        exact fun entry member => (List.mem_filter.mp member).1
      · obtain ⟨entry, dead, joined⟩ := List.mem_filterMap.mp member
        exact (read entry (List.mem_filter.mp dead).1 job joined).2

theorem mem_expiredLeasedJobs (coherent : tables.Coherent)
    (found : tables.jobs.get? job.id = some job) (registered : job.leaseEntry = some entry)
    {now : ℚ} (ended : entry.leaseExpiresAt < now) : job ∈ tables.expiredLeasedJobs now := by
  obtain ⟨leased, _, _, expiry⟩ := JobRow.leased_of_leaseEntry registered
  unfold JobTables.expiredLeasedJobs
  cases packed : tables.leases with
  | none =>
      refine List.mem_filter.mpr ⟨List.mem_map_of_mem (Dict.get?_eq_some_mem found), ?_⟩
      exact decide_eq_true ⟨leased, entry.leaseExpiresAt, expiry, ended⟩
  | some leases =>
      have held := coherent.registered job.id leases packed
      rw [found, Option.bind_some, registered] at held
      refine List.mem_filterMap.mpr ⟨(job.id, entry), ?_, ?_⟩
      · exact List.mem_filter.mpr ⟨Dict.get?_eq_some_mem held, decide_eq_true ended⟩
      · exact Option.filter_eq_some_iff.mpr ⟨found, decide_eq_true leased⟩

theorem mem_leasedBundleIds (coherent : tables.Coherent) (found : tables.jobs.get? jobId = some job)
    (registered : job.leaseEntry = some entry) : entry.bundleId ∈ tables.leasedBundleIds := by
  unfold JobTables.leasedBundleIds
  cases packed : tables.leases with
  | none =>
      obtain ⟨leased, bundle, _⟩ := JobRow.leased_of_leaseEntry registered
      refine List.mem_filterMap.mpr ⟨job, List.mem_filter.mpr ⟨?_, decide_eq_true leased⟩, bundle⟩
      exact List.mem_map_of_mem (Dict.get?_eq_some_mem found)
  | some leases =>
      have held := coherent.registered jobId leases packed
      rw [found, Option.bind_some, registered] at held
      exact List.mem_map.mpr ⟨entry, List.mem_map_of_mem (Dict.get?_eq_some_mem held), rfl⟩

theorem leasedInBundle_pos (coherent : tables.Coherent) (found : tables.jobs.get? jobId = some job)
    (registered : job.leaseEntry = some entry) : 0 < tables.leasedInBundle entry.bundleId := by
  unfold JobTables.leasedInBundle
  cases packed : tables.leases with
  | none =>
      obtain ⟨leased, bundle, _⟩ := JobRow.leased_of_leaseEntry registered
      refine List.length_pos_of_mem (List.mem_filter.mpr ⟨?_, decide_eq_true ⟨leased, bundle⟩⟩)
      exact List.mem_map_of_mem (Dict.get?_eq_some_mem found)
  | some leases =>
      have held := coherent.registered jobId leases packed
      rw [found, Option.bind_some, registered] at held
      refine List.length_pos_of_mem (List.mem_filter.mpr ⟨?_, decide_eq_true rfl⟩)
      exact List.mem_map_of_mem (Dict.get?_eq_some_mem held)

end JobTables.Coherent

/-! ## Recovery -/

/-- The row of a dead lease as it goes back to the queue. -/
def JobRow.requeuedAt (job : JobRow) (now : ℚ) (models : List String) : JobRow :=
  ({ job with tokenReservation := 0, updatedAt := now } : JobRow).released.inQueue models

variable {state : Coordinator}

theorem recover_edits (catalog : LaneCatalog) (now : ℚ) (coherent : state.tables.Coherent) :
    JobTables.Edits ((state.tables.expiredLeasedJobs now).map fun job =>
        ⟨job.id, some job, some (job.requeuedAt now (catalog.modelsToIndex job))⟩)
      state.tables (state.recover catalog now).tables := by
  have spec := coherent.expiredLeasedJobs now
  have folded : (state.tables.expiredLeasedJobs now).foldlM
      (fun tables job => some (requeueExpired catalog now tables job)) state.tables =
        some (state.recover catalog now).tables := by
    show (state.tables.expiredLeasedJobs now).foldlM
        (fun tables job => pure (requeueExpired catalog now tables job)) state.tables =
      some ((state.tables.expiredLeasedJobs now).foldl (requeueExpired catalog now)
        (state.tables.dropStaleLeases now))
    rw [coherent.dropStaleLeases_eq, List.foldlM_pure]
    rfl
  have present (job : JobRow) (member : job ∈ state.tables.expiredLeasedJobs now) :
      state.tables.jobs.get? (id job).id = some (id job) := (spec.2 job member).1
  refine .of_foldlM coherent spec.1 present (fun _ _ => rfl) ?_ folded
  rintro job member before next coherent found ⟨⟩
  exact coherent.requeue (catalog.modelsToIndex_ne_nil job) found (spec.2 job member).2

/-- A leased row goes back to the queue. -/
def Change.Requeued : Change → Prop := Change.Passes [some .leased] [some .queued]

theorem recover_moves (catalog : LaneCatalog) (now : ℚ) (queued : ℤ)
    (coherent : state.tables.Coherent) :
    CountedTables.Moves Change.Requeued ⟨state.tables, queued⟩
      ⟨(state.recover catalog now).tables,
        queued + (state.tables.expiredLeasedJobs now).length⟩ := by
  have spec := coherent.expiredLeasedJobs now
  refine ⟨_, recover_edits catalog now coherent, ?_, ?_⟩
  · intro change member
    obtain ⟨job, expired, rfl⟩ := List.mem_map.mp member
    refine ⟨?_, List.mem_cons_self⟩
    show some job.state ∈ [some JobState.leased]
    rw [(spec.2 job expired).2]
    exact List.mem_cons_self
  · unfold JobTables.Edits.gain
    have each (job : JobRow) (expired : job ∈ state.tables.expiredLeasedJobs now) :
        queuedUnit (job.requeuedAt now (catalog.modelsToIndex job)) - queuedUnit job = 1 := by
      have idle : queuedUnit job = 0 := queuedUnit_of_ne (by rw [(spec.2 job expired).2]; decide)
      rw [idle, queuedUnit_of_eq rfl, sub_zero]
    have total := sum_queuedUnit each
    rw [mul_one] at total
    rw [List.map_map]
    exact congrArg (queued + ·) total.symm

structure Coordinator.Bundled (state : Coordinator) : Prop where
  nodup : state.bundles.keys.Nodup
  leased : ∀ jobId job, state.tables.jobs.get? jobId = some job → job.state = .leased →
    ∃ entry bundle, job.leaseEntry = some entry ∧
      state.bundles.get? entry.bundleId = some bundle ∧
        bundle.leaseExpiresAt = entry.leaseExpiresAt

def KeepsLease (before after : Option JobRow) : Prop :=
  ∀ row ∈ after, row.state = .leased →
    ∃ old ∈ before, old.state = .leased ∧ old.leaseEntry = row.leaseEntry

theorem KeepsLease.refl (row : Option JobRow) : KeepsLease row row :=
  fun job member leased => ⟨job, member, leased, rfl⟩

theorem KeepsLease.trans (first second third : Option JobRow) (left : KeepsLease first second)
    (right : KeepsLease second third) : KeepsLease first third := by
  intro row member leased
  obtain ⟨middle, inMiddle, middleLeased, middleSame⟩ := right row member leased
  obtain ⟨old, inOld, oldLeased, oldSame⟩ := left middle inMiddle middleLeased
  exact ⟨old, inOld, oldLeased, oldSame.trans middleSame⟩

variable {change : Change}

theorem KeepsLease.of_passes {sources targets : List (Option JobState)}
    (passes : change.Passes sources targets) (idle : some JobState.leased ∉ targets) :
    KeepsLease change.before change.after := by
  intro row member leased
  have target := passes.target
  rw [Option.mem_def.mp member, Option.map_some, leased] at target
  exact absurd target idle

variable {after : Coordinator}

theorem Coordinator.Bundled.of_moves {allowed : Change → Prop}
    {first second : CountedTables} (bundled : state.Bundled)
    (moves : CountedTables.Moves allowed first second) (before : first.tables = state.tables)
    (later : second.tables = after.tables)
    (keeps : ∀ change, allowed change → KeepsLease change.before change.after)
    (same : after.bundles = state.bundles) : after.Bundled where
  nodup := by
    rw [same]
    exact bundled.nodup
  leased := by
    intro jobId job found leased
    have kept := moves.relates KeepsLease.refl KeepsLease.trans jobId
      fun change permitted _ => keeps change permitted
    rw [before, later] at kept
    obtain ⟨old, member, oldLeased, registered⟩ := kept job found leased
    rw [same, ← registered]
    exact bundled.leased jobId old member oldLeased

theorem recover_bundled (catalog : LaneCatalog) (now : ℚ)
    (coherent : state.tables.Coherent) (bundled : state.Bundled) :
    (state.recover catalog now).Bundled where
  nodup := bundled.nodup.sublist (List.filter_sublist.map _)
  leased := by
    intro jobId job found leased
    have spec := coherent.expiredLeasedJobs now
    have edits := recover_edits catalog now coherent
    have requeued (dead : JobRow) (expired : dead ∈ state.tables.expiredLeasedJobs now) :
        (state.recover catalog now).tables.jobs.get? dead.id =
          some (dead.requeuedAt now (catalog.modelsToIndex dead)) := by
      refine edits.changed ?_ (List.mem_map_of_mem expired)
      rw [List.map_map]
      exact spec.1
    -- A row that is still leased was not requeued, so its lease is not over.
    have kept : state.tables.jobs.get? jobId = some job := by
      rw [← found]
      refine edits.unchanged ?_
      rintro change member rfl
      obtain ⟨dead, expired, rfl⟩ := List.mem_map.mp member
      rw [requeued dead expired, Option.some.injEq] at found
      rw [← found] at leased
      cases leased
    obtain ⟨entry, bundle, registered, active, expiry⟩ := bundled.leased jobId job kept leased
    have named := coherent.named jobId job kept
    have live : ¬ entry.leaseExpiresAt < now := by
      intro ended
      have expired := coherent.mem_expiredLeasedJobs (by rwa [named]) registered ended
      have gone := requeued job expired
      rw [named, found, Option.some.injEq] at gone
      rw [gone] at leased
      cases leased
    refine ⟨entry, bundle, registered, ?_, expiry⟩
    have listed := (edits.coherent coherent).mem_leasedBundleIds found registered
    have member : (entry.bundleId, bundle) ∈ (state.recover catalog now).bundles := by
      refine List.mem_filter.mpr ⟨Dict.get?_eq_some_mem active, decide_eq_true ⟨?_, listed⟩⟩
      rwa [expiry]
    exact Dict.get?_of_mem (bundled.nodup.sublist (List.filter_sublist.map _)) member

/-! ## Reconciliation -/

/-- A queued row is indexed anew, or fails. -/
def Change.Reconciled : Change → Prop :=
  Change.Passes [some .queued] [some .queued, some .failed]

theorem JobRow.failedAt_ne_queued (job : JobRow) (reason digest : String) (now : ℚ) :
    (job.failedAt reason digest now).state ≠ .queued := by
  rintro ⟨⟩

theorem JobRow.failedAt_ne_leased (job : JobRow) (reason digest : String) (now : ℚ) :
    (job.failedAt reason digest now).state ≠ .leased := by
  rintro ⟨⟩

variable {tables : JobTables}

/-- The jobs of a page are distinct queued rows. -/
theorem rescuePage_spec (coherent : tables.Coherent) (limit : Nat) (cursor : Option RescueCursor) :
    ((rescuePage limit cursor tables).map JobRow.id).Nodup ∧
      ∀ job ∈ rescuePage limit cursor tables, tables.Offers job := by
  unfold rescuePage
  cases cursor with
  | none => exact coherent.readCandidates "__unroutable__" none limit
  | some cursor =>
      have queued : (tables.queuedByUpdate.map JobRow.id).Nodup := by
        unfold JobTables.queuedByUpdate
        refine (List.Perm.nodup_iff ((List.mergeSort_perm _ _).map _)).mpr ?_
        exact coherent.nodup_ids.sublist (List.filter_sublist.map _)
      refine ⟨queued.sublist (((List.take_sublist _ _).trans List.filter_sublist).map _), ?_⟩
      intro job member
      have listed := (List.mem_filter.mp (List.mem_of_mem_take member)).1
      obtain ⟨stored, state⟩ := List.mem_filter.mp (List.mem_mergeSort.mp listed)
      exact ⟨coherent.get?_of_mem_values stored, of_decide_eq_true state⟩

def reconciledRow (catalog : ClaimCatalog) (now : ℚ) (job : JobRow) : JobRow :=
  match catalog.lanes.modelsForQueuedJob job with
  | [] =>
      let otherwise :=
        if (catalog.routesForUnroutableJob job).isEmpty then "route_retired" else "unadmissible"
      job.failedAt (exhaustedReason job otherwise) catalog.digest now
  | model :: models => job.inQueue (model :: models)

variable {catalog : ClaimCatalog} {next : JobTables}

theorem reconcileJob_writes {now : ℚ} (coherent : tables.Coherent) (offered : tables.Offers job)
    (step : reconcileJob catalog now tables job = some next) :
    JobTables.Writes (reconciledRow catalog now job) tables next := by
  unfold reconcileJob at step
  unfold reconciledRow
  cases models : catalog.lanes.modelsForQueuedJob job with
  | nil =>
      rw [models] at step
      dsimp only at step ⊢
      obtain ⟨after, ran, writes⟩ := coherent.withdraw offered.1 offered.2
        (show (job.failedAt _ catalog.digest now).id = job.id from rfl)
        (job.failedAt_ne_queued _ _ _) (job.failedAt_ne_leased _ _ _)
      rw [ran, Option.some.injEq] at step
      rwa [← step]
  | cons model rest =>
      rw [models] at step
      dsimp only at step ⊢
      obtain ⟨after, ran, writes⟩ := coherent.reindex (List.cons_ne_nil model rest) offered.1
        offered.2
      rw [ran, Option.some.injEq] at step
      rwa [← step]

theorem reconciledRow_id (catalog : ClaimCatalog) (now : ℚ) (job : JobRow) :
    (reconciledRow catalog now job).id = job.id := by
  unfold reconciledRow
  split <;> rfl

theorem reconciledRow_state (catalog : ClaimCatalog) (now : ℚ) (job : JobRow) :
    (reconciledRow catalog now job).state =
      if (catalog.lanes.modelsForQueuedJob job).isEmpty then .failed else .queued := by
  unfold reconciledRow
  split
  · next models =>
    rw [models]
    rfl
  · next model rest models =>
    rw [models]
    rfl

/-- What a test takes out of a list, counted one by one. -/
theorem sum_filtered {α : Type} (items : List α) (test : α → Bool) :
    (items.map fun item => if test item then (-1 : ℤ) else 0).sum =
      -((items.filter test).length : ℤ) := by
  induction items with
  | nil => rfl
  | cons item rest induction =>
      rw [List.map_cons, List.sum_cons, induction]
      cases kept : test item with
      | true =>
          rw [List.filter_cons_of_pos kept, List.length_cons, if_pos rfl]
          push_cast
          ring
      | false =>
          rw [List.filter_cons_of_neg (by rw [kept]; decide), if_neg Bool.false_ne_true, zero_add]

structure Coordinator.Reconciles (before after : Coordinator) : Prop where
  bundles : after.bundles = before.bundles
  routes : after.routes = before.routes
  providers : after.providers = before.providers
  queuedJobCount : after.scheduler.queuedJobCount = before.scheduler.queuedJobCount
  initialized : after.scheduler.queuedJobCountInitialized =
    before.scheduler.queuedJobCountInitialized
  utcDay : after.scheduler.utcDay = before.scheduler.utcDay
  leaseCountToday : after.scheduler.leaseCountToday = before.scheduler.leaseCountToday

theorem Coordinator.Reconciles.of_advance {before : Coordinator} (tables : JobTables) (limit : Nat)
    (digest : String) (cursor : Option RescueCursor) (page : List JobRow) :
    before.Reconciles { before with
      tables := tables
      scheduler := before.scheduler.advanceRescue limit digest cursor page } := by
  cases cursor with
  | none => exact ⟨rfl, rfl, rfl, rfl, rfl, rfl, rfl⟩
  | some cursor => exact ⟨rfl, rfl, rfl, rfl, rfl, rfl, rfl⟩

variable {call : ClaimCall} {limits : ClaimLimits}

theorem reconcileUnroutableJobs_moves {rowStop : ℚ} {failed : Nat}
    (coherent : state.tables.Coherent)
    (step : reconcileUnroutableJobs limits catalog call rowStop state = some (after, failed))
    (queued : ℤ) :
    CountedTables.Moves Change.Reconciled ⟨state.tables, queued⟩ ⟨after.tables, queued - failed⟩ ∧
      state.Reconciles after := by
  unfold reconcileUnroutableJobs at step
  dsimp only at step
  generalize rescueCursor catalog.digest state = cursor at step
  have spec := rescuePage_spec coherent limits.maxUnroutableReconcilePerTick cursor
  generalize rescuePage limits.maxUnroutableReconcilePerTick cursor state.tables = page at step spec
  split at step
  · cases step
    refine ⟨?_, rfl, rfl, rfl, rfl, rfl, rfl, rfl⟩
    rw [Nat.cast_zero, sub_zero]
    exact .refl _ _
  obtain ⟨tables, ran, same⟩ := Option.map_eq_some_iff.mp step
  cases same
  have stale : (staleJobs catalog page).Sublist page := List.filter_sublist
  have offered (job : JobRow) (member : job ∈ staleJobs catalog page) : state.tables.Offers job :=
    spec.2 job (stale.subset member)
  refine ⟨?_, .of_advance tables _ _ _ _⟩
  · have present (job : JobRow) (member : job ∈ staleJobs catalog page) :
        state.tables.jobs.get? (id job).id = some (id job) := (offered job member).1
    have writes (job : JobRow) (member : job ∈ staleJobs catalog page) (before next : JobTables)
        (coherent : before.Coherent) (found : before.jobs.get? (id job).id = some (id job))
        (ran : reconcileJob catalog call.now before job = some next) :
        JobTables.Writes (reconciledRow catalog call.now job) before next :=
      reconcileJob_writes coherent ⟨found, (offered job member).2⟩ ran
    have permitted (job : JobRow) (member : job ∈ staleJobs catalog page) :
        Change.Reconciled ⟨(id job).id, some (id job),
          some (reconciledRow catalog call.now job)⟩ := by
      refine ⟨?_, ?_⟩
      · show some job.state ∈ [some JobState.queued]
        rw [(offered job member).2]
        exact List.mem_cons_self
      · show some (reconciledRow catalog call.now job).state ∈ _
        rw [reconciledRow_state]
        split <;> decide
    have moved : CountedTables.Moves Change.Reconciled ⟨state.tables, queued⟩ ⟨tables, _⟩ :=
      .distinct queued coherent (spec.1.sublist (stale.map _)) present
        (fun job _ => reconciledRow_id catalog call.now job) writes permitted ran
    have each (job : JobRow) (member : job ∈ staleJobs catalog page) :
        queuedUnit (reconciledRow catalog call.now job) - queuedUnit job =
          if (catalog.lanes.modelsForQueuedJob job).isEmpty then -1 else 0 := by
      rw [queuedUnit_of_eq (offered job member).2, queuedUnit, reconciledRow_state]
      split <;> simp
    rwa [List.map_congr_left each, sum_filtered, ← sub_eq_add_neg] at moved

/-! ## Oversize jobs -/

/-- The row of a job that no live route takes at its size. -/
def oversizeRow (catalog : ClaimCatalog) (call : ClaimCall) (job : JobRow) : JobRow :=
  job.failedAt (exhaustedReason job "unadmissible") catalog.digest call.now

theorem failOversizeJob_writes
    {before : JobTables} (coherent : before.Coherent) (offered : before.Offers job)
    (step : failOversizeJob catalog call before job = some next) :
    JobTables.Writes (oversizeRow catalog call job) before next := by
  obtain ⟨failed, withdrawn, writes⟩ := coherent.withdraw offered.1 offered.2
    (show (oversizeRow catalog call job).id = job.id from rfl) (job.failedAt_ne_queued _ _ _)
    (job.failedAt_ne_leased _ _ _)
  have same : failed = next := Option.some.inj (withdrawn.symm.trans step)
  rwa [← same]

theorem failOversize_moves {jobs : List JobRow}
    {after : JobTables} (coherent : tables.Coherent) (distinct : (jobs.map JobRow.id).Nodup)
    (offered : ∀ job ∈ jobs, tables.Offers job)
    (ran : jobs.foldlM (failOversizeJob catalog call) tables = some after) (queued : ℤ) :
    CountedTables.Moves
      (fun change => change.jobId ∈ jobs.map JobRow.id ∧ change.Reconciled)
      ⟨tables, queued⟩ ⟨after, queued - jobs.length⟩ := by
  let result : JobRow → JobRow := oversizeRow catalog call
  have present (job : JobRow) (member : job ∈ jobs) :
      tables.jobs.get? (id job).id = some (id job) := (offered job member).1
  have writes (job : JobRow) (member : job ∈ jobs) (before next : JobTables)
      (coherent : before.Coherent) (found : before.jobs.get? (id job).id = some (id job))
      (step : failOversizeJob catalog call before job = some next) :
      JobTables.Writes (result job) before next :=
    failOversizeJob_writes coherent ⟨found, (offered job member).2⟩ step
  let allowed : Change → Prop := fun change =>
    change.jobId ∈ jobs.map JobRow.id ∧ change.Reconciled
  have permitted (job : JobRow) (member : job ∈ jobs) :
      allowed ⟨(id job).id, some (id job), some (result job)⟩ := by
    refine ⟨List.mem_map_of_mem member, ?_, List.mem_cons_of_mem _ List.mem_cons_self⟩
    show some job.state ∈ [some JobState.queued]
    rw [(offered job member).2]
    exact List.mem_cons_self
  have named (job : JobRow) (_ : job ∈ jobs) : (result job).id = (id job).id := rfl
  have moved : CountedTables.Moves allowed ⟨tables, queued⟩ ⟨after, _⟩ :=
    .distinct queued coherent distinct present named writes permitted ran
  have each (job : JobRow) (member : job ∈ jobs) :
      queuedUnit (result job) - queuedUnit job = -1 := by
    rw [queuedUnit_of_eq (offered job member).2,
      queuedUnit_of_ne (show (result job).state ≠ .queued from job.failedAt_ne_queued _ _ _)]
    rfl
  rwa [sum_queuedUnit each, mul_neg_one, ← sub_eq_add_neg] at moved

/-! ## Leasing -/

structure Change.Leased (limits : ClaimLimits) (call : ClaimCall) (change : Change) : Prop where
  source : change.before.map JobRow.state = some .queued
  target : change.after.map JobRow.state = some .leased
  entry : ∀ row ∈ change.after, ∃ routeId,
    row.leaseEntry = some (leaseEntryFor limits call routeId)

def Change.On (limits : ClaimLimits) (call : ClaimCall) (routeId : String) (change : Change) :
    Prop :=
  ∀ row ∈ change.after, row.leaseEntry = some (leaseEntryFor limits call routeId)

def Change.Chosen (limits : ClaimLimits) (call : ClaimCall) (chosen : List Chosen)
    (change : Change) : Prop :=
  change.Leased limits call ∧
    ∃ entry ∈ chosen, entry.job.id = change.jobId ∧ change.On limits call entry.route.routeId

def LaneProgress.counted (queued : ℤ) (lane : LaneProgress) : CountedTables :=
  ⟨lane.tables, queued - lane.leased.length⟩

def LanesProgress.counted (queued : ℤ) (lanes : LanesProgress) : CountedTables :=
  ⟨lanes.tables, queued - lanes.leased.length⟩

/-- What a lease moves: a job out of the queue, and its tokens onto its route. -/
def JobRow.moved (job : JobRow) : ℤ × (String → ℚ) := (queuedUnit job, job.holds)

def LaneProgress.tallied (queued : ℤ) (reserved : String → ℚ) (routeId : String)
    (lane : LaneProgress) : Tallied (ℤ × (String → ℚ)) :=
  ⟨lane.tables, ((lane.counted queued).tally,
    Function.update reserved routeId lane.ledger.provisionalReservation)⟩

def LanesProgress.tallied (queued : ℤ) (lanes : LanesProgress) : Tallied (ℤ × (String → ℚ)) :=
  ⟨lanes.tables, ((lanes.counted queued).tally, provisionalReservations lanes.routes)⟩

section

variable {calendar : Calendar} {limits : ClaimLimits} {catalog : ClaimCatalog} {call : ClaimCall}
  {queued : ℤ} {reserved : String → ℚ} {route : ClaimRoute} {lane : LaneProgress} {wait : LaneWait}

theorem leaseAt_writes {next : LaneProgress}
    (coherent : lane.tables.Coherent) (offered : lane.tables.Offers job)
    (step : leaseAt calendar limits catalog call route lane job wait = some next) :
    JobTables.Writes
      (job.leasedOn route.routeId (leaseEntryFor limits call route.routeId)
        (call.leaseToken job.id) wait.reservation
        (applyProvisionalReservation calendar route.catalog lane.ledger wait.reservation
          wait.notBeforeAt (some (call.leaseToken job.id))) call.now) lane.tables next.tables := by
  unfold leaseAt at step
  obtain ⟨tables, taken, same⟩ := Option.map_eq_some_iff.mp step
  rw [← same]
  exact coherent.lease offered.1 offered.2 rfl rfl rfl rfl taken

/-- The lane's ledger takes on what its new lease holds. -/
theorem leaseAt_moves {next : LaneProgress}
    (coherent : lane.tables.Coherent) (offered : lane.tables.Offers job)
    (step : leaseAt calendar limits catalog call route lane job wait = some next) :
    Tallied.Moves JobRow.moved
      (fun change => change.jobId ∈ [job.id] ∧ change.Leased limits call ∧
        change.On limits call route.routeId)
      (lane.tallied queued reserved route.routeId) (next.tallied queued reserved route.routeId) := by
  have writes := leaseAt_writes coherent offered step
  refine .write writes ⟨List.mem_cons_self, ⟨?_, rfl, ?_⟩, ?_⟩ ?_
  · show (lane.tables.jobs.get? job.id).map JobRow.state = some .queued
    rw [offered.1, Option.map_some, offered.2]
  · rintro row ⟨⟩
    exact ⟨route.routeId, rfl⟩
  · rintro row ⟨⟩
    rfl
  · have unheld : job.moved = (1, 0) :=
      Prod.ext (queuedUnit_of_eq offered.2) (JobRow.holds_of_ne (by rw [offered.2]; decide))
    show _ = _ + (_ - (lane.tables.jobs.get? job.id).elim 0 JobRow.moved)
    rw [offered.1, Option.elim_some, unheld]
    unfold leaseAt at step
    obtain ⟨tables, _, rfl⟩ := Option.map_eq_some_iff.mp step
    refine Prod.ext ?_ ?_
    · show queued - ((lane.leased ++ [_]).length : ℕ) = queued - lane.leased.length + (0 - 1)
      rw [List.length_append, List.length_singleton]
      push_cast
      ring
    · show Function.update reserved route.routeId (applyProvisionalReservation _ _ _ _ _
          _).provisionalReservation =
        Function.update reserved route.routeId lane.ledger.provisionalReservation +
          (JobRow.holds _ - 0)
      rw [JobRow.holds_of_leased rfl rfl, sub_zero, applyProvisionalReservation_provisional]
      funext other
      rw [Pi.add_apply, Function.update_apply, Function.update_apply, Pi.single_apply]
      split
      · rfl
      · exact (add_zero _).symm

theorem leaseJob_moves {next : LaneProgress} {entry : Chosen}
    (coherent : lane.tables.Coherent) (offered : lane.tables.Offers entry.job)
    (step : leaseJob calendar limits catalog call route lane entry = some next) :
    Tallied.Moves JobRow.moved
      (fun change => change.jobId ∈ [entry.job.id] ∧ change.Leased limits call ∧
        change.On limits call route.routeId)
      (lane.tallied queued reserved route.routeId) (next.tallied queued reserved route.routeId) := by
  unfold leaseJob at step
  split at step
  · cases step
    exact .refl _ _
  · split at step
    · cases step
      exact .refl _ _
    · exact leaseAt_moves coherent offered step

theorem leaseJobs_idle {entries : List Chosen} {after : LaneProgress}
    (ran : entries.foldlM (leaseJob calendar limits catalog call route) lane = some after)
    (idle : after.leased = []) : after = lane := by
  induction entries generalizing lane with
  | nil =>
      cases ran
      rfl
  | cons entry rest induction =>
      rw [List.foldlM_cons, Option.bind_eq_bind] at ran
      obtain ⟨next, stepped, later⟩ := Option.bind_eq_some_iff.mp ran
      have same := induction later
      subst same
      unfold leaseJob at stepped
      split at stepped
      · exact (Option.some.inj stepped).symm
      · split at stepped
        · exact (Option.some.inj stepped).symm
        · unfold leaseAt at stepped
          obtain ⟨tables, _, rfl⟩ := Option.map_eq_some_iff.mp stepped
          exact absurd idle (List.append_ne_nil_of_right_ne_nil _ (List.cons_ne_nil _ _))

variable {lanes : LanesProgress}

theorem leaseLane_moves {next : LanesProgress} {lane : String × List Chosen}
    (coherent : lanes.tables.Coherent) (distinct : (chosenIds lane.2).Nodup)
    (offered : ∀ entry ∈ lane.2, lanes.tables.Offers entry.job)
    (together : ∀ entry ∈ lane.2, entry.route.routeId = lane.1)
    (step : leaseLane calendar limits catalog call lanes lane = some next) :
    Tallied.Moves JobRow.moved
      (fun change => change.jobId ∈ (lane.2.map Chosen.job).map JobRow.id ∧
        change.Leased limits call ∧ change.On limits call lane.1)
      (lanes.tallied queued) (next.tallied queued) := by
  unfold leaseLane at step
  cases jobs : lane.2 with
  | nil =>
      rw [jobs] at step
      cases step
      exact .refl _ _
  | cons first rest =>
      rw [jobs] at step distinct offered together
      obtain ⟨after, ran, rfl⟩ := Option.map_eq_some_iff.mp step
      let rows : Chosen → List JobRow := fun entry => [entry.job]
      let view := LaneProgress.tallied (queued - lanes.leased.length)
        (provisionalReservations lanes.routes) first.route.routeId
      have singles : (first :: rest).flatMap rows = (first :: rest).map Chosen.job :=
        List.map_eq_flatMap.symm
      have separate : (((first :: rest).flatMap rows).map JobRow.id).Nodup := by
        rw [singles, List.map_map]
        exact distinct
      have present : ∀ row ∈ (first :: rest).flatMap rows,
          lanes.tables.jobs.get? row.id = some row := by
        rw [singles]
        rintro row listed
        obtain ⟨entry, member, rfl⟩ := List.mem_map.mp listed
        exact (offered entry member).1
      have each (entry : Chosen) (member : entry ∈ first :: rest) (lane next : LaneProgress)
          (coherent : lane.tables.Coherent)
          (found : ∀ row ∈ rows entry, lane.tables.jobs.get? row.id = some row)
          (stepped : leaseJob calendar limits catalog call first.route lane entry = some next) :
          Tallied.Moves JobRow.moved
            (fun change => change.jobId ∈ (rows entry).map JobRow.id ∧
              change.Leased limits call ∧ change.On limits call first.route.routeId)
            (view lane) (view next) :=
        leaseJob_moves coherent ⟨found entry.job List.mem_cons_self, (offered entry member).2⟩
          stepped
      have moved := Tallied.Moves.foldlM_apart view rows each (by exact coherent) separate
        (by exact present) ran
      rw [singles] at moved
      obtain ⟨changes, edits, permitted, followed⟩ := moved
      rw [together first List.mem_cons_self] at permitted
      refine ⟨changes, edits, permitted, Prod.ext ?_ ?_⟩
      · have counted : queued - lanes.leased.length - after.leased.length =
            queued - lanes.leased.length - (0 : ℕ) +
              (JobTables.Edits.gain JobRow.moved changes).1 := congrArg Prod.fst followed
        show queued - (lanes.leased ++ after.leased).length = queued - lanes.leased.length + _
        rw [List.length_append]
        omega
      · have begun := getOrCreateRouteLedger_provisional lanes.routes first.route.routeId call.now
          first.route.catalog.tpm
        have held : Function.update (provisionalReservations lanes.routes) first.route.routeId
              after.ledger.provisionalReservation =
            Function.update (provisionalReservations lanes.routes) first.route.routeId
                (getOrCreateRouteLedger lanes.routes first.route.routeId call.now
                  first.route.catalog.tpm).provisionalReservation +
              (JobTables.Edits.gain JobRow.moved changes).2 := congrArg Prod.snd followed
        rw [begun, Function.update_eq_self] at held
        show provisionalReservations (if after.leased.isEmpty then lanes.routes
          else lanes.routes.set lane.1 after.ledger) = provisionalReservations lanes.routes + _
        rw [← held, together first List.mem_cons_self]
        split
        · next idle =>
          have same := leaseJobs_idle ran (List.isEmpty_iff.mp idle)
          have kept : after.ledger.provisionalReservation =
              provisionalReservations lanes.routes first.route.routeId := by
            rw [same]
            exact begun
          rw [← together first List.mem_cons_self, kept, Function.update_eq_self]
        · exact provisionalReservations_set lanes.routes lane.1 after.ledger

variable {chosen : List Chosen}

theorem leaseLanes_tallied (coherent : state.tables.Coherent) (distinct : (chosenIds chosen).Nodup)
    (offered : ∀ entry ∈ chosen, state.tables.Offers entry.job)
    (ran : leaseLanes calendar limits catalog call state chosen = some lanes) :
    Tallied.Moves JobRow.moved (Change.Chosen limits call chosen)
      ⟨state.tables, (queued, provisionalReservations state.routes)⟩ (lanes.tallied queued) := by
  let rows : String × List Chosen → List JobRow := fun lane => lane.2.map Chosen.job
  unfold leaseLanes at ran
  have perm := Dict.grouped_groupOn_perm (fun entry : Chosen => entry.route.routeId) chosen
  unfold Dict.grouped at perm
  have keyed (lane : String × List Chosen)
      (member : lane ∈ Dict.groupOn (fun entry : Chosen => entry.route.routeId) chosen) :=
    (Dict.mem_groupOn (fun entry : Chosen => entry.route.routeId) member).2
  generalize Dict.groupOn (fun entry : Chosen => entry.route.routeId) chosen = groups
    at ran perm keyed
  have jobs : groups.flatMap rows = (groups.flatMap Prod.snd).map Chosen.job :=
    List.map_flatMap.symm
  have inside (lane : String × List Chosen) (member : lane ∈ groups) :
      lane.2.Sublist (groups.flatMap Prod.snd) := by
    rw [List.flatMap_def]
    exact List.sublist_flatten_of_mem (List.mem_map_of_mem member)
  have separate : ((groups.flatMap rows).map JobRow.id).Nodup := by
    rw [jobs, List.map_map]
    exact ((perm.map _).nodup_iff).mpr distinct
  have present : ∀ row ∈ groups.flatMap rows, state.tables.jobs.get? row.id = some row := by
    rw [jobs]
    rintro row listed
    obtain ⟨entry, member, rfl⟩ := List.mem_map.mp listed
    exact (offered entry (perm.mem_iff.mp member)).1
  have each (lane : String × List Chosen) (member : lane ∈ groups) (before next : LanesProgress)
      (coherent : before.tables.Coherent)
      (found : ∀ row ∈ rows lane, before.tables.jobs.get? row.id = some row)
      (stepped : leaseLane calendar limits catalog call before lane = some next) :
      Tallied.Moves JobRow.moved
        (fun change => change.jobId ∈ (rows lane).map JobRow.id ∧
          change.Chosen limits call chosen)
        (before.tallied queued) (next.tallied queued) := by
    refine (leaseLane_moves coherent ?_ ?_ (keyed lane member) stepped).mono ?_
    · have nodup := ((perm.map _).nodup_iff).mpr distinct
      exact nodup.sublist ((inside lane member).map _)
    · intro entry chosenEntry
      refine ⟨found entry.job (List.mem_map_of_mem chosenEntry), ?_⟩
      exact (offered entry (perm.mem_iff.mp ((inside lane member).subset chosenEntry))).2
    · rintro change ⟨named, leased, on⟩
      obtain ⟨row, listed, same⟩ := List.mem_map.mp named
      obtain ⟨entry, chosenEntry, rfl⟩ := List.mem_map.mp listed
      refine ⟨named, leased, entry, perm.mem_iff.mp ((inside lane member).subset chosenEntry), same,
        ?_⟩
      rwa [keyed lane member entry chosenEntry]
  have moved := Tallied.Moves.foldlM_apart (LanesProgress.tallied queued) rows each
    (by exact coherent) separate (by exact present) ran
  have begun : LanesProgress.tallied queued
      { tables := state.tables, routes := state.routes, providers := state.providers } =
        ⟨state.tables, (queued, provisionalReservations state.routes)⟩ := by
    unfold LanesProgress.tallied LanesProgress.counted
    simp
  rw [← begun]
  exact moved.mono fun _ both => both.2

theorem leaseLanes_moves (coherent : state.tables.Coherent) (distinct : (chosenIds chosen).Nodup)
    (offered : ∀ entry ∈ chosen, state.tables.Offers entry.job)
    (ran : leaseLanes calendar limits catalog call state chosen = some lanes) :
    CountedTables.Moves (Change.Chosen limits call chosen) ⟨state.tables, queued⟩
      ⟨lanes.tables, queued - lanes.leased.length⟩ :=
  (leaseLanes_tallied coherent distinct offered ran).map (AddMonoidHom.fst ℤ (String → ℚ))

end

/-! ## One claim -/

/-- A claim requeues, indexes anew, fails or leases a row. -/
def Change.Claimed (limits : ClaimLimits) (call : ClaimCall) (change : Change) : Prop :=
  change.Requeued ∨ change.Reconciled ∨ change.Leased limits call

def LeasesTo (limits : ClaimLimits) (call : ClaimCall) (before after : Option JobRow) : Prop :=
  ∀ row ∈ after, row.state = .leased →
    (∃ old ∈ before, old.state = .leased ∧ old.leaseEntry = row.leaseEntry) ∨
      ∃ routeId, row.leaseEntry = some (leaseEntryFor limits call routeId)

theorem LeasesTo.refl (limits : ClaimLimits) (call : ClaimCall) (row : Option JobRow) :
    LeasesTo limits call row row :=
  fun job member leased => .inl ⟨job, member, leased, rfl⟩

theorem LeasesTo.trans (first second third : Option JobRow)
    (left : LeasesTo limits call first second) (right : LeasesTo limits call second third) :
    LeasesTo limits call first third := by
  intro row member leased
  rcases right row member leased with ⟨middle, inMiddle, middleLeased, same⟩ | here
  · rw [← same]
    exact left middle inMiddle middleLeased
  · exact .inr here

/-- What a phase of a claim leaves, where the requeued jobs are still to be counted. -/
structure Coordinator.Claims (limits : ClaimLimits) (call : ClaimCall) (queuedDelta : ℤ)
    (before after : Coordinator) : Prop where
  moves : CountedTables.Moves (Change.Claimed limits call)
    ⟨before.tables, before.scheduler.queuedJobCount + queuedDelta⟩ after.counted
  bundled : after.Bundled
  initialized : after.scheduler.queuedJobCountInitialized = true

/-- The count that a claim is about to record. -/
structure Coordinator.Balances (state : Coordinator) (queuedDelta : ℤ) : Prop where
  coherent : state.tables.Coherent
  bundled : state.Bundled
  initialized : state.scheduler.queuedJobCountInitialized = true
  exact : state.scheduler.queuedJobCount + queuedDelta = state.tables.queuedJobs

theorem KeepsLease.of_reconciled (reconciled : change.Reconciled) :
    KeepsLease change.before change.after :=
  .of_passes reconciled (by decide)

section

variable {calendar : Calendar} {limits : ClaimLimits} {catalog : ClaimCatalog} {call : ClaimCall}
  {queuedDelta : ℤ} {state after : Coordinator}

namespace Coordinator.Balances

theorem nonneg (balances : state.Balances queuedDelta) :
    max 0 (state.scheduler.queuedJobCount + queuedDelta) =
      state.scheduler.queuedJobCount + queuedDelta := by
  rw [balances.exact]
  exact max_eq_right state.tables.queuedJobs_nonneg

theorem recordEmpty (balances : state.Balances queuedDelta) (reason : ClaimReason) :
    state.Claims limits call queuedDelta (recordEmpty reason queuedDelta state).1 where
  moves := by
    show CountedTables.Moves _ _
      ⟨state.tables, max 0 (state.scheduler.queuedJobCount + queuedDelta)⟩
    rw [balances.nonneg]
    exact .refl _ _
  bundled := ⟨balances.bundled.nodup, balances.bundled.leased⟩
  initialized := balances.initialized

theorem recordClaimed {lanes : LanesProgress} (balances : state.Balances queuedDelta)
    (fresh : call.bundleId ∉ state.bundles.keys)
    (moved : CountedTables.Moves (Change.Leased limits call)
      ⟨state.tables, state.scheduler.queuedJobCount + queuedDelta⟩
      ⟨lanes.tables, state.scheduler.queuedJobCount + queuedDelta - lanes.leased.length⟩) :
    state.Claims limits call queuedDelta (recordClaimed limits call queuedDelta lanes state).1 := by
  have coherent := moved.coherent balances.coherent
  have balanced := moved.balanced balances.coherent
  have nonneg := lanes.tables.queuedJobs_nonneg
  refine ⟨?_, ⟨?_, ?_⟩, balances.initialized⟩
  · have counted : max 0 (state.scheduler.queuedJobCount + (queuedDelta - lanes.leased.length)) =
        state.scheduler.queuedJobCount + queuedDelta - lanes.leased.length := by
      have exact := balances.exact
      have offset : state.scheduler.queuedJobCount + queuedDelta - lanes.leased.length -
          lanes.tables.queuedJobs =
            state.scheduler.queuedJobCount + queuedDelta - state.tables.queuedJobs := balanced
      omega
    show CountedTables.Moves _ _
      ⟨lanes.tables, max 0 (state.scheduler.queuedJobCount + (queuedDelta - lanes.leased.length))⟩
    rw [counted]
    exact moved.mono fun change leased => .inr (.inr leased)
  · exact Dict.nodup_keys_set balances.bundled.nodup _ _
  · intro jobId job found leased
    have kept := moved.relates (LeasesTo.refl limits call) LeasesTo.trans jobId
      fun change permitted _ row member _ => .inr (permitted.entry row member)
    rcases kept job found leased with ⟨old, member, oldLeased, registered⟩ | ⟨routeId, registered⟩
    · obtain ⟨entry, bundle, oldEntry, active, expiry⟩ :=
        balances.bundled.leased jobId old member oldLeased
      refine ⟨entry, bundle, registered.symm.trans oldEntry, ?_, expiry⟩
      have different : entry.bundleId ≠ call.bundleId := by
        intro same
        rw [same] at active
        exact fresh (Dict.get?_isSome_iff_mem_keys.mp (by rw [active]; rfl))
      exact (Dict.get?_set_other _ _ different).trans active
    · exact ⟨_, _, registered, Dict.get?_set_same _ _ _, rfl⟩

end Coordinator.Balances

variable {reply : ClaimReply} {selection : Selection} {chosen : List Chosen}

theorem Coordinator.Balances.leaseChosen (balances : state.Balances queuedDelta)
    (fresh : call.bundleId ∉ state.bundles.keys) (distinct : (chosenIds chosen).Nodup)
    (offered : ∀ entry ∈ chosen, state.tables.Offers entry.job)
    (step : leaseChosen calendar limits catalog call queuedDelta selection chosen state =
      some (after, reply)) : state.Claims limits call queuedDelta after := by
  unfold Dispatch.leaseChosen at step
  split at step
  · cases step
    exact balances.recordEmpty (emptyReason state queuedDelta selection)
  · obtain ⟨lanes, leased, recorded⟩ := Option.map_eq_some_iff.mp step
    split at recorded
    · cases recorded
      exact balances.recordEmpty .dispatchWindowCapacity
    · cases recorded
      exact balances.recordClaimed fresh
        ((leaseLanes_moves balances.coherent distinct offered leased).mono fun _ => And.left)

theorem leaseChosen_moves (coherent : state.tables.Coherent) (distinct : (chosenIds chosen).Nodup)
    (offered : ∀ entry ∈ chosen, state.tables.Offers entry.job)
    (step : leaseChosen calendar limits catalog call queuedDelta selection chosen state =
      some (after, reply)) :
    ∃ moved : ℤ, CountedTables.Moves (Change.Leased limits call) ⟨state.tables, 0⟩
      ⟨after.tables, moved⟩ := by
  unfold Dispatch.leaseChosen at step
  split at step
  · cases step
    exact ⟨0, .refl _ _⟩
  · obtain ⟨lanes, leased, recorded⟩ := Option.map_eq_some_iff.mp step
    split at recorded <;> cases recorded
    · exact ⟨0, .refl _ _⟩
    · exact ⟨_, (leaseLanes_moves coherent distinct offered leased).mono fun _ => And.left⟩

theorem Coordinator.Claims.after_moves {middle : Coordinator} {delta : ℤ} {allowed : Change → Prop}
    (claims : middle.Claims limits call delta after) (moves : CountedTables.Moves allowed
      ⟨state.tables, state.scheduler.queuedJobCount + queuedDelta⟩
      ⟨middle.tables, middle.scheduler.queuedJobCount + delta⟩)
    (weaker : ∀ change, allowed change → change.Claimed limits call) :
    state.Claims limits call queuedDelta after where
  moves := (moves.mono weaker).trans claims.moves
  bundled := claims.bundled
  initialized := claims.initialized

variable {bundleJobLimit : Nat}

theorem Coordinator.Balances.dispatchJobs
    (balances : state.Balances queuedDelta) (fresh : call.bundleId ∉ state.bundles.keys)
    (step : dispatchJobs calendar limits catalog call bundleJobLimit queuedDelta state =
      some (after, reply)) : state.Claims limits call queuedDelta after := by
  unfold Dispatch.dispatchJobs at step
  dsimp only at step
  have same : (touchLedgers catalog call state).tables = state.tables := rfl
  have coherent : (touchLedgers catalog call state).tables.Coherent := balances.coherent
  have sound : Selection.Sound calendar limits catalog call (touchLedgers catalog call state) _ :=
    selectJobs_sound coherent bundleJobLimit
  generalize selectJobs calendar limits catalog call (touchLedgers catalog call state)
    bundleJobLimit = selection at step sound
  obtain ⟨distinct, offered⟩ := drainPass_spec sound bundleJobLimit
  obtain ⟨tables, ran, leased⟩ := Option.bind_eq_some_iff.mp step
  have moved := failOversize_moves coherent sound.oversize sound.oversizeRows ran
    (state.scheduler.queuedJobCount + queuedDelta)
  have reconciled := moved.mono fun change both => both.2
  have after : ({ touchLedgers catalog call state with tables := tables } : Coordinator).Balances
      (queuedDelta - selection.oversize.length) := by
    refine ⟨moved.coherent coherent, ?_, balances.initialized, ?_⟩
    · exact balances.bundled.of_moves reconciled rfl rfl (fun _ => .of_reconciled) rfl
    · have exact := balances.exact
      have offset : state.scheduler.queuedJobCount + queuedDelta - selection.oversize.length -
          tables.queuedJobs =
            state.scheduler.queuedJobCount + queuedDelta - state.tables.queuedJobs :=
        moved.balanced coherent
      show state.scheduler.queuedJobCount + (queuedDelta - selection.oversize.length) =
        tables.queuedJobs
      omega
  have remains (entry : Chosen) (member : entry ∈ drainPass limits catalog
      (touchLedgers catalog call state) bundleJobLimit selection) : tables.Offers entry.job := by
    obtain ⟨here, apart⟩ := offered entry member
    have unchanged : state.tables.jobs.get? entry.job.id = tables.jobs.get? entry.job.id :=
      moved.unchanged fun change permitted named => apart (named ▸ permitted.1)
    exact ⟨unchanged.symm.trans here.1, here.2⟩
  refine (after.leaseChosen fresh distinct remains leased).after_moves ?_
    fun change permitted => .inr (.inl permitted)
  rw [show (({ touchLedgers catalog call state with tables := tables } :
    Coordinator).scheduler.queuedJobCount + (queuedDelta - selection.oversize.length)) =
      state.scheduler.queuedJobCount + queuedDelta - selection.oversize.length from
        (add_sub_assoc _ _ _).symm]
  exact reconciled

theorem Coordinator.Balances.claimWithin
    (balances : state.Balances queuedDelta) (fresh : call.bundleId ∉ state.bundles.keys)
    (step : claimWithin calendar limits catalog call bundleJobLimit queuedDelta state =
      some (after, reply)) : state.Claims limits call queuedDelta after := by
  unfold Dispatch.claimWithin at step
  split at step
  · cases step
    exact balances.recordEmpty .activeBundleLimit
  · split at step
    · cases step
      exact balances.recordEmpty .inFlightCallLimit
    · exact balances.dispatchJobs fresh step

theorem Coordinator.Balances.reconcileAndClaim {begun : Coordinator} {reaped : Nat}
    (balances : state.Balances reaped) (fresh : call.bundleId ∉ state.bundles.keys)
    (step : reconcileAndClaim calendar limits catalog call begun reaped state =
      some (after, reply)) : state.Claims limits call reaped after := by
  unfold Dispatch.reconcileAndClaim at step
  dsimp only at step
  split at step
  · obtain ⟨⟨middle, failed⟩, ran, claimed⟩ := Option.bind_eq_some_iff.mp step
    obtain ⟨moved, frame⟩ := reconcileUnroutableJobs_moves balances.coherent ran
      (state.scheduler.queuedJobCount + reaped)
    have next : middle.Balances ((reaped : ℤ) - failed) := by
      refine ⟨moved.coherent balances.coherent, ?_, ?_, ?_⟩
      · exact balances.bundled.of_moves moved rfl rfl (fun _ => .of_reconciled) frame.bundles
      · exact frame.initialized.trans balances.initialized
      · have exact := balances.exact
        have offset : state.scheduler.queuedJobCount + reaped - failed - middle.tables.queuedJobs =
            state.scheduler.queuedJobCount + reaped - state.tables.queuedJobs :=
          moved.balanced balances.coherent
        rw [frame.queuedJobCount]
        omega
    refine (next.claimWithin (by rwa [frame.bundles]) claimed).after_moves ?_
      fun change permitted => .inr (.inl permitted)
    rw [frame.queuedJobCount, ← add_sub_assoc]
    exact moved
  · rw [Option.bind_some, Nat.cast_zero, sub_zero] at step
    exact balances.claimWithin fresh step

end

/-! ## What every operation keeps -/

structure Coordinator.Sound (state : Coordinator) : Prop where
  coherent : state.tables.Coherent
  counted : state.Counted
  bundled : state.Bundled

theorem Coordinator.Claims.sound {queuedDelta : ℤ}
    (claims : state.Claims limits call queuedDelta after)
    (balances : state.Balances queuedDelta) : after.Sound where
  coherent := claims.moves.coherent balances.coherent
  counted := by
    refine ⟨claims.initialized, ?_⟩
    have balanced : after.scheduler.queuedJobCount - after.tables.queuedJobs =
        state.scheduler.queuedJobCount + queuedDelta - state.tables.queuedJobs :=
      claims.moves.balanced balances.coherent
    have exact := balances.exact
    omega
  bundled := claims.bundled

theorem Coordinator.Sound.balances (sound : state.Sound) :
    state.Balances 0 :=
  ⟨sound.coherent, sound.bundled, sound.counted.initialized, by
    rw [add_zero]
    exact sound.counted.exact⟩

theorem Coordinator.rollUtcDayIfNeeded_initialized (now : ℚ) (state : Coordinator) :
    (state.rollUtcDayIfNeeded now).scheduler.queuedJobCountInitialized =
      state.scheduler.queuedJobCountInitialized := by
  show (state.scheduler.rollUtcDayIfNeeded now).queuedJobCountInitialized = _
  unfold Scheduler.rollUtcDayIfNeeded
  split <;> rfl

theorem Coordinator.Sound.rollUtcDayIfNeeded (sound : state.Sound) (now : ℚ) :
    (state.rollUtcDayIfNeeded now).Sound where
  coherent := sound.coherent
  counted := by
    refine ⟨(state.rollUtcDayIfNeeded_initialized now).trans sound.counted.initialized, ?_⟩
    exact (Scheduler.rollUtcDayIfNeeded_queuedJobCount now state.scheduler).trans
      sound.counted.exact
  bundled := ⟨sound.bundled.nodup, sound.bundled.leased⟩

/-- A recovery keeps the count exact once what it requeued is added. -/
theorem Coordinator.Sound.recoverIfDue (sound : state.Sound)
    (limits : ClaimLimits) (catalog : LaneCatalog) (now : ℚ) :
    (state.recoverIfDue limits catalog now).1.Balances (state.recoverIfDue limits catalog now).2 ∧
      CountedTables.Moves Change.Requeued state.counted
        ⟨(state.recoverIfDue limits catalog now).1.tables,
          (state.recoverIfDue limits catalog now).1.scheduler.queuedJobCount +
            (state.recoverIfDue limits catalog now).2⟩ := by
  unfold Coordinator.recoverIfDue
  split
  · have moved := recover_moves catalog now state.scheduler.queuedJobCount sound.coherent
    refine ⟨⟨moved.coherent sound.coherent,
      recover_bundled catalog now sound.coherent sound.bundled, sound.counted.initialized, ?_⟩,
      moved⟩
    have exact := sound.counted.exact
    have offset : state.scheduler.queuedJobCount + (state.tables.expiredLeasedJobs now).length -
        (state.recover catalog now).tables.queuedJobs =
          state.scheduler.queuedJobCount - state.tables.queuedJobs :=
      moved.balanced sound.coherent
    show state.scheduler.queuedJobCount + (state.tables.expiredLeasedJobs now).length =
      (state.recover catalog now).tables.queuedJobs
    omega
  · refine ⟨sound.balances, ?_⟩
    rw [Nat.cast_zero, add_zero]
    exact .refl _ _

theorem recoverIfDue_bundles (limits : ClaimLimits) (catalog : LaneCatalog) (now : ℚ)
    (state : Coordinator) :
    (state.recoverIfDue limits catalog now).1.bundles.keys ⊆ state.bundles.keys := by
  unfold Coordinator.recoverIfDue
  split
  · exact (List.filter_sublist.map _).subset
  · exact fun _ member => member

theorem claimDispatchWindow_sound {calendar : Calendar} {reply : ClaimReply}
    (sound : state.Sound) (fresh : call.bundleId ∉ state.bundles.keys)
    (step : claimDispatchWindow calendar limits catalog call state = some (after, reply)) :
    after.Sound ∧
      CountedTables.Moves (Change.Claimed limits call) state.counted after.counted := by
  unfold claimDispatchWindow at step
  split at step
  · cases step
    exact ⟨sound, .refl _ _⟩
  rw [Coordinator.ensureQueuedJobCounter_eq sound.counted.initialized] at step
  dsimp only at step
  have begun := sound.rollUtcDayIfNeeded call.now
  have counted := state.rollUtcDayIfNeeded_counted call.now
  have known : call.bundleId ∉ (state.rollUtcDayIfNeeded call.now).bundles.keys := fresh
  rw [← counted]
  generalize state.rollUtcDayIfNeeded call.now = start at step begun known
  have empty (reason : ClaimReason) : (recordEmpty reason 0 start).1.Sound ∧
      CountedTables.Moves (Change.Claimed limits call) start.counted
        (recordEmpty reason 0 start).1.counted := by
    have claims : start.Claims limits call 0 (recordEmpty reason 0 start).1 :=
      begun.balances.recordEmpty reason
    refine ⟨claims.sound begun.balances, ?_⟩
    have moves := claims.moves
    rwa [add_zero] at moves
  split at step
  · cases step
    exact ⟨begun, .refl _ _⟩
  split at step
  · cases step
    exact empty .dailyBundleLimit
  split at step
  · cases step
    exact empty .dailyLeaseLimit
  obtain ⟨balances, moved⟩ := begun.recoverIfDue limits catalog.lanes call.now
  have unknown : call.bundleId ∉ (start.recoverIfDue limits catalog.lanes call.now).1.bundles.keys :=
    fun member => known (recoverIfDue_bundles limits catalog.lanes call.now start member)
  have claims := balances.reconcileAndClaim unknown step
  exact ⟨claims.sound balances,
    (moved.mono fun change requeued => .inl requeued).trans claims.moves⟩

end CityPods.Dispatch
