import CityPods.Dispatch.ClaimEffects

/-! # Runs of the coordinator

The operations of the coordinator as the transitions of one state, in any order
and with any arguments. Every one of them keeps the coordinator sound.
-/

namespace CityPods.Dispatch

open Foundation

inductive Operation
  | enqueueBatch (config : IngressConfig) (catalog : LaneCatalog) (now : ℚ)
      (rowBudget : RowBudget) (batch : List Submission)
  | schemaRetry (config : IngressConfig) (catalog : LaneCatalog) (now : ℚ) (rowBudget : RowBudget)
      (freshId sourceId : String) (retry : SchemaCorrection)
  | cancelBatch (now : ℚ) (rowsSpent : Bool) (jobIds : List String)
  | claimDispatchWindow (calendar : Calendar) (limits : ClaimLimits) (catalog : ClaimCatalog)
      (call : ClaimCall)
  | authorizeRetry (calendar : Calendar) (config : Config) (retryLimits : RetryLimits)
      (catalog : RetryCatalog) (now draw : ℚ) (request : RetryRequest)
  | completeBatch (config : Config) (catalog : CompletionCatalog) (now : ℚ)
      (bundleId executionToken : String) (reports : List Report)
  | ackResults (now : ℚ) (rowsSpent : Bool) (jobIds : List String)
  | retireConsumed (rowsSpent : Bool) (items : List (String × Option String))
  | purgePendingBatch (localeCompare : LocaleCompare) (now retentionMs : ℚ) (rowsSpent : Bool)
      (limit : Nat)
  | confirmPurge (jobIds : List String)
  | setPriority (jobId : String) (priority : Nat)
  | reserveRouteRequests (calendar : Calendar) (route : CatalogRoute) (routeId : String) (now : ℚ)
      (requests : Nat)
  | admitContext (calendar : Calendar) (route : CatalogRoute) (routeId : String) (now : ℚ)
      (job : SizedJob)

/-- The state after an operation; one that throws is rolled back. -/
def Operation.run (state : Coordinator) : Operation → Option Coordinator
  | .enqueueBatch config catalog now rowBudget batch =>
      (Dispatch.enqueueBatch config catalog now rowBudget batch state).map Prod.fst
  | .schemaRetry config catalog now rowBudget freshId sourceId retry =>
      (Dispatch.schemaRetry config catalog now rowBudget freshId sourceId retry state).map Prod.fst
  | .cancelBatch now rowsSpent jobIds =>
      (Dispatch.cancelBatch now rowsSpent jobIds state).map Prod.fst
  | .claimDispatchWindow calendar limits catalog call =>
      (Dispatch.claimDispatchWindow calendar limits catalog call state).map Prod.fst
  | .authorizeRetry calendar config retryLimits catalog now draw request =>
      some (Dispatch.authorizeRetry calendar config retryLimits catalog now draw request state).1
  | .completeBatch config catalog now bundleId executionToken reports =>
      some (Dispatch.completeBatch config catalog now bundleId executionToken reports state)
  | .ackResults now rowsSpent jobIds => some (Dispatch.ackResults now rowsSpent jobIds state).1
  | .retireConsumed rowsSpent items => some (Dispatch.retireConsumed rowsSpent items state).1
  | .purgePendingBatch localeCompare now retentionMs rowsSpent limit =>
      some (Dispatch.purgePendingBatch localeCompare now retentionMs rowsSpent limit state).1
  | .confirmPurge jobIds => some (Dispatch.confirmPurge jobIds state)
  | .setPriority jobId priority => Dispatch.setPriority jobId priority state
  | .reserveRouteRequests calendar route routeId now requests =>
      some (Dispatch.reserveRouteRequests calendar route routeId now requests state)
  | .admitContext calendar route routeId now job =>
      Dispatch.admitContext calendar route routeId now job state

def Operation.Fresh (state : Coordinator) : Operation → Prop
  | .claimDispatchWindow _ _ _ call => call.bundleId ∉ state.bundles.keys
  | _ => True

inductive Coordinator.Reaches (start : Coordinator) : Coordinator → Prop
  | refl : Reaches start start
  | step {middle after : Coordinator} (earlier : Reaches start middle) (operation : Operation)
      (fresh : operation.Fresh middle) (ran : operation.run middle = some after) :
      Reaches start after

/-! ## What an operation moves -/

/-- The changes of rows that an operation may make. -/
def Operation.Allows : Operation → Change → Prop
  | .enqueueBatch .. | .schemaRetry .. => Change.Submitted
  | .cancelBatch _ _ jobIds => Change.Cancelled jobIds
  | .claimDispatchWindow _ limits _ call => Change.Claimed limits call
  | .authorizeRetry .. | .setPriority .. => Change.Adjusted
  | .completeBatch .. => Change.Settled
  | .ackResults _ _ jobIds =>
      Change.Purged fun jobId row => jobId ∈ jobIds ∧ row.state = .completed
  | .retireConsumed _ items => Change.Removed (consumedBy items)
  | .purgePendingBatch _ now retentionMs _ _ =>
      Change.Purged fun _ row =>
        (row.state = .completed ∨ row.state = .failed) ∧ retentionOver now retentionMs row = true
  | .confirmPurge _ => Change.Removed fun _ row => row.state = .purgePending
  | .reserveRouteRequests .. | .admitContext .. => fun _ => False

variable {change : Change}

theorem KeepsLease.of_submitted (submitted : change.Submitted) :
    KeepsLease change.before change.after :=
  .of_passes submitted (by decide)

variable {held : String → JobRow → Prop}

theorem KeepsLease.of_purged
    (purged : change.Purged held) : KeepsLease change.before change.after := by
  intro row member leased
  have target := purged.target
  rw [Option.mem_def.mp member, Option.map_some, leased] at target
  cases target

theorem KeepsLease.of_removed
    (removed : change.Removed held) : KeepsLease change.before change.after := by
  intro row member
  rw [removed.target] at member
  cases member

theorem KeepsLease.of_adjusted (adjusted : change.Adjusted) :
    KeepsLease change.before change.after := by
  obtain ⟨row, priority, attempts, before, after⟩ := adjusted
  rw [before, after]
  rintro _ ⟨⟩ leased
  exact ⟨row, rfl, leased, rfl⟩

variable {allowed : Change → Prop} {state after : Coordinator}

theorem Coordinator.Sound.of_moves
    (sound : state.Sound) (moves : CountedTables.Moves allowed state.counted after.counted)
    (keeps : ∀ change, allowed change → KeepsLease change.before change.after)
    (bundles : after.bundles = state.bundles)
    (initialized : after.scheduler.queuedJobCountInitialized = true) : after.Sound where
  coherent := moves.coherent sound.coherent
  counted := by
    refine ⟨initialized, ?_⟩
    have balanced : after.scheduler.queuedJobCount - after.tables.queuedJobs =
        state.scheduler.queuedJobCount - state.tables.queuedJobs := moves.balanced sound.coherent
    have exact := sound.counted.exact
    omega
  bundled := sound.bundled.of_moves moves rfl rfl keeps bundles

/-! ## What an operation leaves -/

/-- The bundles, the ledgers of the routes and the format of the count stay. -/
structure Coordinator.Frames (before after : Coordinator) : Prop where
  bundles : after.bundles = before.bundles
  routes : after.routes = before.routes
  initialized : after.scheduler.queuedJobCountInitialized =
    before.scheduler.queuedJobCountInitialized

theorem Coordinator.Frames.refl (state : Coordinator) : state.Frames state := ⟨rfl, rfl, rfl⟩

theorem Coordinator.Sound.of_frames
    (sound : state.Sound) (moves : CountedTables.Moves allowed state.counted after.counted)
    (keeps : ∀ change, allowed change → KeepsLease change.before change.after)
    (frames : state.Frames after) : after.Sound :=
  sound.of_moves moves keeps frames.bundles (frames.initialized.trans sound.counted.initialized)

section

variable {state after : Coordinator} {now : ℚ}
  {config : IngressConfig} {catalog : LaneCatalog} {rowBudget : RowBudget}

theorem enqueueBatch_frames {batch : List Submission} {reply : BatchReply}
    (initialized : state.scheduler.queuedJobCountInitialized = true)
    (step : enqueueBatch config catalog now rowBudget batch state = some (after, reply)) :
    state.Frames after := by
  unfold enqueueBatch at step
  obtain ⟨progress, ran, committed⟩ := Option.map_eq_some_iff.mp step
  cases committed
  unfold beginBatch
  rw [Coordinator.ensureQueuedJobCounter_eq initialized]
  exact ⟨rfl, rfl, state.rollUtcDayIfNeeded_initialized now⟩

theorem schemaRetry_frames {freshId sourceId : String} {retry : SchemaCorrection}
    {reply : SchemaRetryReply} (initialized : state.scheduler.queuedJobCountInitialized = true)
    (step : schemaRetry config catalog now rowBudget freshId sourceId retry state =
      some (after, reply)) : state.Frames after := by
  unfold schemaRetry at step
  split at step
  · split at step <;> cases step <;> exact .refl _
  · split at step
    · cases step
      exact .refl _
    · split at step
      · cases step
        exact .refl _
      · dsimp only at step
        rw [Coordinator.ensureQueuedJobCounter_eq
          ((state.rollUtcDayIfNeeded_initialized now).trans initialized)] at step
        split at step
        · cases step
          exact ⟨rfl, rfl, state.rollUtcDayIfNeeded_initialized now⟩
        · obtain ⟨admitted, ran, same⟩ := Option.map_eq_some_iff.mp step
          cases same
          unfold admitRetry at ran
          obtain ⟨tables, inserted, rfl⟩ := Option.map_eq_some_iff.mp ran
          exact ⟨rfl, rfl, state.rollUtcDayIfNeeded_initialized now⟩

theorem cancelBatch_frames {rowsSpent : Bool} {jobIds : List String} {reply : CancelReply}
    (initialized : state.scheduler.queuedJobCountInitialized = true)
    (step : cancelBatch now rowsSpent jobIds state = some (after, reply)) :
    state.Frames after := by
  unfold cancelBatch at step
  split at step
  · cases step
    exact .refl _
  · rw [Coordinator.ensureQueuedJobCounter_eq initialized] at step
    obtain ⟨progress, ran, committed⟩ := Option.map_eq_some_iff.mp step
    cases committed
    exact ⟨rfl, rfl, rfl⟩

theorem setPriority_frames {jobId : String} {priority : Nat}
    (step : setPriority jobId priority state = some after) : state.Frames after := by
  unfold setPriority at step
  split at step
  · cases step
    exact .refl _
  · split at step <;> cases step
    exact ⟨rfl, rfl, rfl⟩

theorem ackResults_frames (now : ℚ) (rowsSpent : Bool) (jobIds : List String) :
    state.Frames (ackResults now rowsSpent jobIds state).1 := by
  unfold ackResults
  split <;> exact ⟨rfl, rfl, rfl⟩

theorem retireConsumed_frames (rowsSpent : Bool) (items : List (String × Option String)) :
    state.Frames (retireConsumed rowsSpent items state).1 := by
  unfold retireConsumed
  split <;> exact ⟨rfl, rfl, rfl⟩

theorem purgePendingBatch_frames (localeCompare : LocaleCompare) (now retentionMs : ℚ)
    (rowsSpent : Bool) (limit : Nat) :
    state.Frames (purgePendingBatch localeCompare now retentionMs rowsSpent limit state).1 := by
  unfold purgePendingBatch
  split <;> exact ⟨rfl, rfl, rfl⟩

theorem authorizeRetry_bundles (calendar : Calendar) (config : Config) (retryLimits : RetryLimits)
    (catalog : RetryCatalog) (now draw : ℚ) (request : RetryRequest) :
    (authorizeRetry calendar config retryLimits catalog now draw request state).1.bundles =
        state.bundles ∧
      (authorizeRetry calendar config retryLimits catalog now draw request
        state).1.scheduler = state.scheduler := by
  unfold authorizeRetry
  split
  · exact ⟨rfl, rfl⟩
  · split
    · split
      · unfold decideRetry
        dsimp only
        split
        · exact ⟨rfl, rfl⟩
        · unfold grantRetry
          split <;> exact ⟨rfl, rfl⟩
      · exact ⟨rfl, rfl⟩
    · exact ⟨rfl, rfl⟩

/-- A completion drops its bundle only once nothing is leased in it. -/
theorem completeBatch_bundled (config : Config) (catalog : CompletionCatalog) (now : ℚ)
    (bundleId executionToken : String) (reports : List Report) (sound : state.Sound) :
    (completeBatch config catalog now bundleId executionToken reports state).Bundled := by
  have moves : CountedTables.Moves Change.Settled state.counted
      (completeBatch config catalog now bundleId executionToken reports state).counted :=
    completeBatch_moves bundleId executionToken reports sound.coherent sound.counted.initialized
  have coherent : (completeBatch config catalog now bundleId executionToken reports
    state).tables.Coherent := moves.coherent sound.coherent
  have kept : ({ completeBatch config catalog now bundleId executionToken reports state with
      bundles := state.bundles } : Coordinator).Bundled :=
    sound.bundled.of_moves moves rfl rfl (fun change settled => .of_passes settled (by decide)) rfl
  unfold completeBatch at coherent kept ⊢
  split
  · next live =>
    rw [if_pos live] at coherent kept
    rw [Coordinator.ensureQueuedJobCounter_eq sound.counted.initialized] at coherent kept ⊢
    generalize completeReports config catalog now reports (completionStart state) = progress
      at coherent kept ⊢
    refine ⟨?_, fun jobId job found leased => ?_⟩
    · show Dict.keys (if _ then state.bundles.erase bundleId else state.bundles) |>.Nodup
      split
      · exact Dict.nodup_keys_erase kept.nodup bundleId
      · exact kept.nodup
    · obtain ⟨entry, bundle, registered, active, expiry⟩ := kept.leased jobId job found leased
      refine ⟨entry, bundle, registered, ?_, expiry⟩
      show Dict.get? (if _ then state.bundles.erase bundleId else state.bundles) _ = _
      split
      · next emptied =>
        have different : entry.bundleId ≠ bundleId := by
          rintro rfl
          have held := coherent.leasedInBundle_pos found registered
          exact absurd emptied.2 held.ne'
        exact (Dict.get?_erase_other _ different).trans active
      · exact active
  · next dead =>
    rw [if_neg dead] at kept
    exact kept

theorem completeBatch_initialized (config : Config) (catalog : CompletionCatalog) (now : ℚ)
    (bundleId executionToken : String) (reports : List Report)
    (initialized : state.scheduler.queuedJobCountInitialized = true) :
    (completeBatch config catalog now bundleId executionToken reports
      state).scheduler.queuedJobCountInitialized = true := by
  unfold completeBatch
  split
  · rw [Coordinator.ensureQueuedJobCounter_eq initialized]
    exact initialized
  · exact initialized

theorem admitContext_frames {calendar : Calendar} {route : CatalogRoute} {routeId : String}
    {job : SizedJob} (step : admitContext calendar route routeId now job state =
      some after) :
    after.tables = state.tables ∧ after.bundles = state.bundles ∧
      after.scheduler = state.scheduler := by
  unfold admitContext at step
  dsimp only at step
  split at step
  · cases step
  · split at step <;> cases step
    exact ⟨rfl, rfl, rfl⟩

/-- Every operation moves rows only as it may, and keeps the coordinator sound. -/
theorem Operation.sound {operation : Operation} (sound : state.Sound)
    (fresh : operation.Fresh state) (ran : operation.run state = some after) :
    after.Sound ∧ CountedTables.Moves operation.Allows state.counted after.counted := by
  have initialized := sound.counted.initialized
  cases operation with
  | enqueueBatch config catalog now rowBudget batch =>
      obtain ⟨⟨_, reply⟩, step, rfl⟩ := Option.map_eq_some_iff.mp ran
      have moves := enqueueBatch_moves sound.coherent initialized step
      exact ⟨sound.of_frames moves (fun _ => .of_submitted) (enqueueBatch_frames initialized step),
        moves⟩
  | schemaRetry config catalog now rowBudget freshId sourceId retry =>
      obtain ⟨⟨_, reply⟩, step, rfl⟩ := Option.map_eq_some_iff.mp ran
      have moves := schemaRetry_moves sound.coherent initialized step
      exact ⟨sound.of_frames moves (fun _ => .of_submitted) (schemaRetry_frames initialized step),
        moves⟩
  | cancelBatch now rowsSpent jobIds =>
      obtain ⟨⟨_, reply⟩, step, rfl⟩ := Option.map_eq_some_iff.mp ran
      have moves := cancelBatch_moves sound.coherent sound.counted step
      exact ⟨sound.of_frames moves (fun _ cancelled => .of_passes cancelled.2 (by decide))
        (cancelBatch_frames initialized step), moves⟩
  | claimDispatchWindow calendar limits catalog call =>
      obtain ⟨⟨_, reply⟩, step, rfl⟩ := Option.map_eq_some_iff.mp ran
      exact claimDispatchWindow_sound sound fresh step
  | authorizeRetry calendar config retryLimits catalog now draw request =>
      cases ran
      have moves := authorizeRetry_moves calendar config retryLimits catalog now draw request
        sound.coherent
      have frame := @authorizeRetry_bundles state calendar config retryLimits catalog now draw
        request
      refine ⟨sound.of_moves moves (fun _ => .of_adjusted) frame.1 ?_, moves⟩
      rw [frame.2]
      exact initialized
  | completeBatch config catalog now bundleId executionToken reports =>
      cases ran
      have bundled := completeBatch_bundled config catalog now bundleId executionToken reports sound
      have frame := completeBatch_initialized config catalog now bundleId executionToken reports
        initialized
      have moves : CountedTables.Moves Change.Settled state.counted
          (Dispatch.completeBatch config catalog now bundleId executionToken reports
            state).counted :=
        completeBatch_moves bundleId executionToken reports sound.coherent initialized
      refine ⟨⟨moves.coherent sound.coherent, ⟨frame, ?_⟩, bundled⟩, moves⟩
      have balanced : _ - JobTables.queuedJobs _ =
          state.scheduler.queuedJobCount - state.tables.queuedJobs :=
        moves.balanced sound.coherent
      have exact := sound.counted.exact
      exact sub_eq_zero.mp (balanced.trans (sub_eq_zero.mpr exact))
  | ackResults now rowsSpent jobIds =>
      cases ran
      have moves := ackResults_moves now rowsSpent jobIds sound.coherent
      exact ⟨sound.of_frames moves (fun _ => .of_purged) (ackResults_frames now rowsSpent jobIds),
        moves⟩
  | retireConsumed rowsSpent items =>
      cases ran
      have moves := retireConsumed_moves rowsSpent items sound.coherent
      exact ⟨sound.of_frames moves (fun _ => .of_removed) (retireConsumed_frames rowsSpent items),
        moves⟩
  | purgePendingBatch localeCompare now retentionMs rowsSpent limit =>
      cases ran
      have moves := purgePendingBatch_moves localeCompare now retentionMs rowsSpent limit sound.coherent
      exact ⟨sound.of_frames moves (fun _ => .of_purged)
        (purgePendingBatch_frames localeCompare now retentionMs rowsSpent limit), moves⟩
  | confirmPurge jobIds =>
      cases ran
      have moves := confirmPurge_moves jobIds sound.coherent
      exact ⟨sound.of_frames moves (fun _ => .of_removed) ⟨rfl, rfl, rfl⟩, moves⟩
  | setPriority jobId priority =>
      have moves := setPriority_moves sound.coherent ran
      exact ⟨sound.of_frames moves (fun _ => .of_adjusted) (setPriority_frames ran), moves⟩
  | reserveRouteRequests calendar route routeId now requests =>
      cases ran
      have moves : CountedTables.Moves (fun _ => False) state.counted
          (Dispatch.reserveRouteRequests calendar route routeId now requests state).counted :=
        .refl _ state.counted
      exact ⟨sound.of_moves moves (fun _ impossible => impossible.elim) rfl initialized, moves⟩
  | admitContext calendar route routeId now job =>
      have same := admitContext_frames ran
      have moves : CountedTables.Moves (fun _ => False) state.counted after.counted := by
        rw [Coordinator.counted, Coordinator.counted, same.1, same.2.2]
        exact .refl _ _
      refine ⟨sound.of_moves moves (fun _ impossible => impossible.elim) same.2.1 ?_, moves⟩
      rw [same.2.2]
      exact initialized

end

/-! ## Reachable states -/

/-- A coordinator that holds no job yet, in either format of the queue and with or
without a lease registry. -/
inductive Coordinator.Unused : Coordinator → Prop
  | legacy (leases : LeaseRegistry) (empty : leases = none ∨ leases = some []) (utcDay : ℤ) :
      Unused (.fresh (.legacy []) leases utcDay)
  | compact (groups : List GroupRow) (leases : LeaseRegistry)
      (empty : leases = none ∨ leases = some []) (utcDay : ℤ) :
      Unused (.fresh (.compact [] groups) leases utcDay)

theorem Coordinator.Sound.of_unused (unused : state.Unused) : state.Sound := by
  have registers (leases : LeaseRegistry) (empty : leases = none ∨ leases = some [])
      (jobId : String) : leases.Registers jobId none ∧ leases.Keyed := by
    rcases empty with rfl | rfl
    · exact ⟨fun _ packed => (by cases packed), fun _ packed => (by cases packed)⟩
    · refine ⟨?_, ?_⟩
      · rintro _ ⟨⟩
        rfl
      · rintro _ ⟨⟩
        exact List.nodup_nil
  have missing (jobId : String) (job : JobRow) :
      Dict.get? ([] : Dict String JobRow) jobId ≠ some job := by
    rintro ⟨⟩
  cases unused with
  | legacy leases empty utcDay =>
      refine ⟨⟨List.nodup_nil, fun jobId job found => absurd found (missing jobId job),
        fun jobId job found => absurd found (missing jobId job), fun jobId => ?_,
        fun jobId => (registers leases empty jobId).1, (registers leases empty "").2⟩,
        ⟨rfl, rfl⟩, ⟨List.nodup_nil, fun jobId job found => absurd found (missing jobId job)⟩⟩
      exact SecondaryIndex.Holds.nil
  | compact groups leases empty utcDay =>
      refine ⟨⟨List.nodup_nil, fun jobId job found => absurd found (missing jobId job),
        fun jobId job found => absurd found (missing jobId job), fun jobId => ?_,
        fun jobId => (registers leases empty jobId).1, (registers leases empty "").2⟩,
        ⟨rfl, rfl⟩, ⟨List.nodup_nil, fun jobId job found => absurd found (missing jobId job)⟩⟩
      refine ⟨SecondaryIndex.Holds.nil, ?_⟩
      rintro _ ⟨⟩

theorem Coordinator.Reaches.sound {start : Coordinator} (reached : start.Reaches state)
    (initial : start.Sound) : state.Sound := by
  induction reached with
  | refl => exact initial
  | step _ operation fresh ran induction => exact (Operation.sound induction fresh ran).1

end CityPods.Dispatch
