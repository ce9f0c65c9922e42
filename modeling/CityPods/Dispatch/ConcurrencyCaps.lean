import CityPods.Dispatch.DailyQuota
import CityPods.Dispatch.LeaseCaps
import Mathlib.Algebra.Order.BigOperators.Group.List

/-! # Caps over runs

The caps on leases in every state that a run of the coordinator reaches, and the
leases of every day, where no claim finds fewer calls free than it may take and
no clock falls behind the day of the scheduler.
-/

namespace CityPods.Dispatch

open Foundation

/-! ## One claim -/

/-- A claim that goes on to lease finds as many calls free as it may take: those of a
whole bundle, or of all that is queued. -/
def SparesCalls (limits : ClaimLimits) (catalog : LaneCatalog) (call : ClaimCall)
    (state : Coordinator) : Prop :=
  let begun := state.ensureQueuedJobCounter.rollUtcDayIfNeeded call.now
  let recovered := (begun.recoverIfDue limits catalog call.now).1
  claimBraked limits call begun = false →
    begun.scheduler.bundleCountToday < limits.maxBundlesPerUtcDay →
      recovered.bundles.length < limits.maxActiveBundles →
        recovered.activeCalls < limits.maxInFlightLlmCalls →
          recovered.activeCalls + min (limits.bundleJobLimit begun) recovered.tables.queuedJobs.toNat ≤
            limits.maxInFlightLlmCalls

instance (limits : ClaimLimits) (catalog : LaneCatalog) (call : ClaimCall) (state : Coordinator) :
    Decidable (SparesCalls limits catalog call state) := by
  unfold SparesCalls
  infer_instance

structure ClaimCaps (limits : ClaimLimits) (fixed : FixedCatalog) (begun after : Coordinator)
    (leased : Nat) : Prop where
  within : after.WithinCaps limits fixed
  utcDay : after.scheduler.utcDay = begun.scheduler.utcDay
  leaseCountToday :
    after.scheduler.leaseCountToday = begun.scheduler.leaseCountToday + leased
  remaining : leased ≤ limits.leasesRemaining begun

section

variable {limits : ClaimLimits} {fixed : FixedCatalog} {state after : Coordinator}

/-- A recovery drops leases and bundles, and adds none. -/
theorem recoverIfDue_withinCaps (catalog : LaneCatalog) (now : ℚ) (sound : state.Sound)
    (within : state.WithinCaps limits fixed) :
    (state.recoverIfDue limits catalog now).1.WithinCaps limits fixed ∧
      (state.recoverIfDue limits catalog now).1.scheduler.utcDay = state.scheduler.utcDay ∧
        (state.recoverIfDue limits catalog now).1.scheduler.leaseCountToday =
          state.scheduler.leaseCountToday := by
  obtain ⟨balances, moved⟩ := sound.recoverIfDue limits catalog now
  have kept := moved.keepsLeases fun _ requeued => .of_passes requeued (by decide)
  have leases := within.leases.keeps sound.coherent balances.coherent kept
  unfold Coordinator.recoverIfDue at leases ⊢
  split
  · next due =>
    rw [if_pos due] at leases
    refine ⟨⟨leases, ?_, ?_⟩, rfl, rfl⟩
    · exact (List.length_filter_le _ _).trans within.bundles
    · refine le_trans ?_ within.calls
      exact (List.filter_sublist.map _ |>.map _).sum_le_sum fun _ _ => Nat.zero_le _
  · exact ⟨within, rfl, rfl⟩

theorem claimDispatchWindow_caps {calendar : Calendar} {catalog : ClaimCatalog} {call : ClaimCall}
    {reply : ClaimReply} (sound : state.Sound) (fresh : call.bundleId ∉ state.bundles.keys)
    (serves : catalog.Serves fixed) (within : state.WithinCaps limits fixed)
    (running : call.paused = false) (spares : SparesCalls limits catalog.lanes call state)
    (step : claimDispatchWindow calendar limits catalog call state = some (after, reply)) :
    ClaimCaps limits fixed (state.rollUtcDayIfNeeded call.now) after reply.jobs.length := by
  have later := (claimDispatchWindow_sound sound fresh step).1
  unfold claimDispatchWindow at step
  unfold SparesCalls at spares
  rw [if_neg (by rw [running]; decide)] at step
  rw [Coordinator.ensureQueuedJobCounter_eq sound.counted.initialized] at step spares
  dsimp only at step spares
  have begun := sound.rollUtcDayIfNeeded call.now
  have known : call.bundleId ∉ (state.rollUtcDayIfNeeded call.now).bundles.keys := fresh
  have capped : (state.rollUtcDayIfNeeded call.now).WithinCaps limits fixed :=
    ⟨within.leases, within.bundles, within.calls⟩
  generalize state.rollUtcDayIfNeeded call.now = start at step spares begun known capped ⊢
  have idle (reason : ClaimReason) :
      ClaimCaps limits fixed start (recordEmpty reason 0 start).1 0 :=
    ⟨⟨capped.leases, capped.bundles, capped.calls⟩, rfl, rfl, Nat.zero_le _⟩
  split at step
  · cases step
    exact ⟨capped, rfl, rfl, Nat.zero_le _⟩
  next unbraked =>
  split at step
  · cases step
    exact idle .dailyBundleLimit
  next spare =>
  split at step
  · cases step
    exact idle .dailyLeaseLimit
  obtain ⟨balances, _⟩ := begun.recoverIfDue limits catalog.lanes call.now
  obtain ⟨recovered, utcDay, count⟩ := recoverIfDue_withinCaps catalog.lanes call.now begun capped
  have unknown :
      call.bundleId ∉ (start.recoverIfDue limits catalog.lanes call.now).1.bundles.keys :=
    fun member => known (recoverIfDue_bundles limits catalog.lanes call.now start member)
  have outcome : ClaimOutcome limits fixed call _ _ after reply.jobs.length :=
    reconcileAndClaim_outcome balances.coherent balances.bundled serves recovered.leases step
  have bundles := outcome.bundles_withinCaps recovered unknown
    (spares (Bool.eq_false_of_not_eq_true unbraked) (Nat.lt_of_not_le spare))
  obtain ⟨sameDay, counted, few⟩ := outcome.counts
  refine ⟨⟨?_, bundles.1, bundles.2⟩, sameDay.trans utcDay, counted.trans (by rw [count]), ?_⟩
  · exact outcome.leases_withinCaps balances.coherent later.coherent recovered.leases unknown
      (Nat.min_le_left _ _)
  · exact few.trans (Nat.min_le_right _ _)

end

/-! ## Other operations -/

structure Coordinator.KeepsDay (before after : Coordinator) : Prop where
  bundles : after.bundles.Sublist before.bundles
  utcDay : after.scheduler.utcDay = before.scheduler.utcDay
  leaseCountToday : after.scheduler.leaseCountToday = before.scheduler.leaseCountToday

theorem Coordinator.KeepsDay.refl (state : Coordinator) : state.KeepsDay state :=
  ⟨List.Sublist.refl _, rfl, rfl⟩

/-- The time by which an operation rolls the day, where it does. -/
def Operation.clock : Operation → Option ℚ
  | .enqueueBatch _ _ now _ _ => some now
  | .schemaRetry _ _ now _ _ _ _ => some now
  | .claimDispatchWindow _ _ _ call => if call.paused then none else some call.now
  | _ => none

/-- The other operations take no lease and add no bundle. -/
def Operation.Claims : Operation → Prop
  | .claimDispatchWindow .. => True
  | _ => False

theorem Operation.keepsLease {operation : Operation} (other : ¬ operation.Claims) (change : Change)
    (allowed : operation.Allows change) : KeepsLease change.before change.after := by
  cases operation with
  | enqueueBatch => exact .of_submitted allowed
  | schemaRetry => exact .of_submitted allowed
  | cancelBatch => exact .of_passes allowed.2 (by decide)
  | claimDispatchWindow => exact absurd trivial other
  | authorizeRetry => exact .of_adjusted allowed
  | completeBatch => exact .of_passes allowed (by decide)
  | ackResults => exact .of_purged allowed
  | retireConsumed => exact .of_removed allowed
  | purgePendingBatch => exact .of_purged allowed
  | confirmPurge => exact .of_removed allowed
  | setPriority => exact .of_adjusted allowed
  | reserveRouteRequests => exact absurd allowed not_false
  | admitContext => exact absurd allowed not_false

section

variable {state after : Coordinator}
  {config : IngressConfig} {catalog : LaneCatalog} {now : ℚ} {rowBudget : RowBudget}

theorem enqueueBatch_keepsDay {batch : List Submission} {reply : BatchReply}
    (initialized : state.scheduler.queuedJobCountInitialized = true)
    (step : enqueueBatch config catalog now rowBudget batch state = some (after, reply)) :
    (state.rollUtcDayIfNeeded now).KeepsDay after := by
  unfold enqueueBatch beginBatch at step
  rw [Coordinator.ensureQueuedJobCounter_eq initialized] at step
  obtain ⟨progress, _, committed⟩ := Option.map_eq_some_iff.mp step
  cases committed
  exact ⟨List.Sublist.refl _, rfl, rfl⟩

theorem schemaRetry_keepsDay {freshId sourceId : String} {retry : SchemaCorrection}
    {reply : SchemaRetryReply} (initialized : state.scheduler.queuedJobCountInitialized = true)
    (step : schemaRetry config catalog now rowBudget freshId sourceId retry state =
      some (after, reply)) :
    state.KeepsDay after ∨ (state.rollUtcDayIfNeeded now).KeepsDay after := by
  unfold schemaRetry at step
  split at step
  · split at step <;> cases step <;> exact .inl (.refl _)
  split at step
  · cases step
    exact .inl (.refl _)
  split at step
  · cases step
    exact .inl (.refl _)
  refine .inr ?_
  dsimp only at step
  rw [Coordinator.ensureQueuedJobCounter_eq
    ((state.rollUtcDayIfNeeded_initialized now).trans initialized)] at step
  split at step
  · cases step
    exact .refl _
  · obtain ⟨admitted, ran, same⟩ := Option.map_eq_some_iff.mp step
    cases same
    unfold admitRetry at ran
    obtain ⟨tables, _, rfl⟩ := Option.map_eq_some_iff.mp ran
    exact ⟨List.Sublist.refl _, rfl, rfl⟩

theorem cancelBatch_keepsDay {rowsSpent : Bool} {jobIds : List String}
    {reply : CancelReply} (initialized : state.scheduler.queuedJobCountInitialized = true)
    (step : cancelBatch now rowsSpent jobIds state = some (after, reply)) :
    state.KeepsDay after := by
  unfold cancelBatch at step
  split at step
  · cases step
    exact .refl _
  · rw [Coordinator.ensureQueuedJobCounter_eq initialized] at step
    obtain ⟨progress, _, committed⟩ := Option.map_eq_some_iff.mp step
    cases committed
    exact ⟨List.Sublist.refl _, rfl, rfl⟩

theorem completeBatch_keepsDay (config : Config) (catalog : CompletionCatalog) (now : ℚ)
    (bundleId executionToken : String) (reports : List Report)
    (initialized : state.scheduler.queuedJobCountInitialized = true) :
    state.KeepsDay (completeBatch config catalog now bundleId executionToken reports state) := by
  unfold completeBatch
  split
  · rw [Coordinator.ensureQueuedJobCounter_eq initialized]
    refine ⟨?_, rfl, rfl⟩
    show List.Sublist (if _ then state.bundles.erase bundleId else state.bundles) _
    split
    · exact List.filter_sublist
    · exact List.Sublist.refl _
  · exact .refl _

theorem setPriority_keepsDay {jobId : String} {priority : Nat}
    (step : setPriority jobId priority state = some after) : state.KeepsDay after := by
  unfold setPriority at step
  split at step
  · cases step
    exact .refl _
  · split at step <;> cases step
    exact ⟨List.Sublist.refl _, rfl, rfl⟩

theorem Coordinator.KeepsDay.of_eq (bundles : after.bundles = state.bundles)
    (scheduler : after.scheduler = state.scheduler) : state.KeepsDay after :=
  ⟨bundles ▸ List.Sublist.refl _, by rw [scheduler], by rw [scheduler]⟩

theorem Operation.keepsDay {operation : Operation} (sound : state.Sound)
    (other : ¬ operation.Claims) (ran : operation.run state = some after) :
    state.KeepsDay after ∨
      ∃ now ∈ operation.clock, (state.rollUtcDayIfNeeded now).KeepsDay after := by
  have initialized := sound.counted.initialized
  cases operation with
  | enqueueBatch config catalog now rowBudget batch =>
      obtain ⟨⟨_, reply⟩, step, rfl⟩ := Option.map_eq_some_iff.mp ran
      exact .inr ⟨now, rfl, enqueueBatch_keepsDay initialized step⟩
  | schemaRetry config catalog now rowBudget freshId sourceId retry =>
      obtain ⟨⟨_, reply⟩, step, rfl⟩ := Option.map_eq_some_iff.mp ran
      exact (schemaRetry_keepsDay initialized step).imp id fun keeps => ⟨now, rfl, keeps⟩
  | cancelBatch now rowsSpent jobIds =>
      obtain ⟨⟨_, reply⟩, step, rfl⟩ := Option.map_eq_some_iff.mp ran
      exact .inl (cancelBatch_keepsDay initialized step)
  | claimDispatchWindow => exact absurd trivial other
  | authorizeRetry calendar config retryLimits catalog now draw request =>
      cases ran
      have frame := @authorizeRetry_bundles state calendar config retryLimits catalog now draw
        request
      exact .inl (.of_eq frame.1 frame.2)
  | completeBatch config catalog now bundleId executionToken reports =>
      cases ran
      exact .inl (completeBatch_keepsDay config catalog now bundleId executionToken reports
        initialized)
  | ackResults now rowsSpent jobIds =>
      cases ran
      refine .inl ?_
      unfold Dispatch.ackResults
      split <;> exact ⟨List.Sublist.refl _, rfl, rfl⟩
  | retireConsumed rowsSpent items =>
      cases ran
      refine .inl ?_
      unfold Dispatch.retireConsumed
      split <;> exact ⟨List.Sublist.refl _, rfl, rfl⟩
  | purgePendingBatch localeCompare now retentionMs rowsSpent limit =>
      cases ran
      refine .inl ?_
      unfold Dispatch.purgePendingBatch
      split <;> exact ⟨List.Sublist.refl _, rfl, rfl⟩
  | confirmPurge jobIds =>
      cases ran
      exact .inl ⟨List.Sublist.refl _, rfl, rfl⟩
  | setPriority jobId priority => exact .inl (setPriority_keepsDay ran)
  | reserveRouteRequests calendar route routeId now requests =>
      cases ran
      exact .inl ⟨List.Sublist.refl _, rfl, rfl⟩
  | admitContext calendar route routeId now job =>
      have same := admitContext_frames ran
      exact .inl (.of_eq same.2.1 same.2.2)

end

/-! ## Runs -/

/-- What may happen to a coordinator: an operation, or a commit that rolls the day. -/
inductive DispatchEvent
  | operation (operation : Operation)
  | rollUtcDay (now : ℚ)

/-- Every claim reads the limits of the deployment, and the catalog less what is paused. -/
def Operation.Uses (limits : ClaimLimits) (fixed : FixedCatalog) : Operation → Prop
  | .claimDispatchWindow _ own catalog _ => own = limits ∧ catalog.Serves fixed
  | _ => True

def Operation.leasedOn (state : Coordinator) (operation : Operation) (day : ℤ) : Nat :=
  match operation with
  | .claimDispatchWindow calendar limits catalog call =>
      match Dispatch.claimDispatchWindow calendar limits catalog call state with
      | some (_, reply) => if day = currentUtcDay call.now then reply.jobs.length else 0
      | none => 0
  | _ => 0

inductive DispatchRun (limits : ClaimLimits) (fixed : FixedCatalog)
    (permitted : Coordinator → DispatchEvent → Prop) (start : Coordinator) :
    Coordinator → (ℤ → Nat) → Prop
  | refl : DispatchRun limits fixed permitted start start fun _ => 0
  | operation {state after : Coordinator} {leases : ℤ → Nat}
      (earlier : DispatchRun limits fixed permitted start state leases) (operation : Operation)
      (uses : operation.Uses limits fixed) (fresh : operation.Fresh state)
      (allowed : permitted state (.operation operation)) (ran : operation.run state = some after) :
      DispatchRun limits fixed permitted start after fun day =>
        leases day + operation.leasedOn state day
  | rollUtcDay {state : Coordinator} {leases : ℤ → Nat}
      (earlier : DispatchRun limits fixed permitted start state leases) (now : ℚ)
      (allowed : permitted state (.rollUtcDay now)) :
      DispatchRun limits fixed permitted start (state.rollUtcDayIfNeeded now) leases

/-- A claim finds as many calls free as it may take, unless it is paused. -/
def Operation.SparesCalls (limits : ClaimLimits) (state : Coordinator) : Operation → Prop
  | .claimDispatchWindow _ _ catalog call =>
      call.paused = false → Dispatch.SparesCalls limits catalog.lanes call state
  | _ => True

def DispatchEvent.Spares (limits : ClaimLimits) (state : Coordinator) : DispatchEvent → Prop
  | .operation next =>
      (∀ now ∈ next.clock, state.scheduler.utcDay ≤ currentUtcDay now) ∧
        next.SparesCalls limits state
  | .rollUtcDay now => state.scheduler.utcDay ≤ currentUtcDay now

/-! ## What a run keeps -/

structure Coordinator.Capped (limits : ClaimLimits) (fixed : FixedCatalog) (state : Coordinator)
    (leases : ℤ → Nat) : Prop where
  sound : state.Sound
  within : state.WithinCaps limits fixed
  today : leases state.scheduler.utcDay = state.scheduler.leaseCountToday
  later : ∀ day, state.scheduler.utcDay < day → leases day = 0
  daily : ∀ day, leases day ≤ limits.maxLeasesPerUtcDay

section

variable {limits : ClaimLimits} {fixed : FixedCatalog} {state after : Coordinator}
  {leases : ℤ → Nat}

namespace Coordinator.Capped

theorem rollUtcDay (capped : state.Capped limits fixed leases) {now : ℚ}
    (onward : state.scheduler.utcDay ≤ currentUtcDay now) :
    (state.rollUtcDayIfNeeded now).Capped limits fixed leases := by
  refine ⟨capped.sound.rollUtcDayIfNeeded now,
    ⟨capped.within.leases, capped.within.bundles, capped.within.calls⟩, ?_, ?_, capped.daily⟩
  · show leases (state.scheduler.rollUtcDayIfNeeded now).utcDay =
      (state.scheduler.rollUtcDayIfNeeded now).leaseCountToday
    unfold Scheduler.rollUtcDayIfNeeded
    split
    · exact capped.today
    · next other =>
      exact capped.later _ (lt_of_le_of_ne onward other)
  · intro day ahead
    have rolled : (state.rollUtcDayIfNeeded now).scheduler.utcDay = currentUtcDay now :=
      Scheduler.rollUtcDayIfNeeded_utcDay now state.scheduler
    rw [rolled] at ahead
    exact capped.later day (onward.trans_lt ahead)

theorem keepsDay (capped : state.Capped limits fixed leases) (sound : after.Sound)
    (kept : state.tables.KeepsLeases after.tables) (keeps : state.KeepsDay after) :
    after.Capped limits fixed leases where
  sound := sound
  within := by
    refine ⟨capped.within.leases.keeps capped.sound.coherent sound.coherent kept, ?_, ?_⟩
    · exact keeps.bundles.length_le.trans capped.within.bundles
    · refine le_trans ?_ capped.within.calls
      exact (keeps.bundles.map _ |>.map _).sum_le_sum fun _ _ => Nat.zero_le _
  today := by
    rw [keeps.utcDay, keeps.leaseCountToday]
    exact capped.today
  later := by
    rw [keeps.utcDay]
    exact capped.later
  daily := capped.daily

theorem claim (capped : state.Capped limits fixed leases) {now : ℚ} {leased : Nat}
    (sound : after.Sound)
    (caps : ClaimCaps limits fixed (state.rollUtcDayIfNeeded now) after leased)
    (onward : state.scheduler.utcDay ≤ currentUtcDay now) :
    after.Capped limits fixed fun day =>
      leases day + if day = currentUtcDay now then leased else 0 := by
  have begun := capped.rollUtcDay onward
  have rolled : (state.rollUtcDayIfNeeded now).scheduler.utcDay = currentUtcDay now :=
    Scheduler.rollUtcDayIfNeeded_utcDay now state.scheduler
  have sameDay := caps.utcDay.trans rolled
  have today := begun.today
  rw [rolled] at today
  refine ⟨sound, caps.within, ?_, ?_, ?_⟩
  · rw [sameDay, if_pos rfl, caps.leaseCountToday, today]
  · intro day ahead
    rw [sameDay] at ahead
    rw [if_neg ahead.ne', begun.later day (by rwa [rolled])]
  · intro day
    split
    · next same =>
      have remaining := caps.remaining
      have bounded := capped.daily day
      unfold ClaimLimits.leasesRemaining at remaining
      rw [same] at bounded ⊢
      omega
    · exact capped.daily day

theorem operation (capped : state.Capped limits fixed leases) {operation : Operation}
    (uses : operation.Uses limits fixed) (fresh : operation.Fresh state)
    (allowed : DispatchEvent.Spares limits state (.operation operation))
    (ran : operation.run state = some after) :
    after.Capped limits fixed fun day => leases day + operation.leasedOn state day := by
  obtain ⟨sound, moves⟩ := Operation.sound capped.sound fresh ran
  by_cases claims : operation.Claims
  · cases operation with
    | claimDispatchWindow calendar own catalog call =>
        obtain ⟨⟨_, reply⟩, step, rfl⟩ := Option.map_eq_some_iff.mp ran
        obtain ⟨rfl, serves⟩ := uses
        have leased : ∀ day, (Operation.claimDispatchWindow calendar own catalog call).leasedOn
            state day = if day = currentUtcDay call.now then reply.jobs.length else 0 := by
          intro day
          unfold Operation.leasedOn
          dsimp only
          rw [step]
        simp only [leased]
        cases paused : call.paused with
        | false =>
            have onward := allowed.1 call.now (by simp [Operation.clock, paused])
            exact capped.claim sound (claimDispatchWindow_caps capped.sound fresh serves capped.within
              paused (allowed.2 paused) step) onward
        | true =>
            unfold Dispatch.claimDispatchWindow at step
            rw [if_pos paused] at step
            cases step
            simpa using capped
    | _ => exact absurd claims not_false
  · have nothing : ∀ day, operation.leasedOn state day = 0 := by
      intro day
      cases operation with
      | claimDispatchWindow => exact absurd trivial claims
      | _ => rfl
    simp only [nothing, add_zero]
    have kept := moves.keepsLeases (Operation.keepsLease claims)
    rcases Operation.keepsDay capped.sound claims ran with keeps | ⟨now, clock, keeps⟩
    · exact capped.keepsDay sound kept keeps
    · exact (capped.rollUtcDay (allowed.1 now clock)).keepsDay sound kept keeps

end Coordinator.Capped

theorem JobTables.WithinCaps.of_empty {tables : JobTables} (empty : tables.jobs = []) :
    tables.WithinCaps limits fixed := by
  have none_held : tables.heldLeases = [] := by
    unfold heldLeases
    rw [empty]
    rfl
  have nothing (test : LeaseEntry → Bool) : tables.leasesWhere test = 0 := by
    unfold leasesWhere
    rw [none_held]
    rfl
  refine ⟨fun _ _ _ => ?_, fun _ _ _ => ?_, fun _ => ?_, fun bundleId => ?_, fun _ _ => ?_⟩
  all_goals try exact (nothing _).trans_le (Nat.zero_le _)
  unfold lanesOf
  rw [none_held]
  exact Nat.zero_le _

theorem Coordinator.Capped.of_unused (unused : state.Unused) :
    state.Capped limits fixed fun _ => 0 := by
  have sound := Coordinator.Sound.of_unused unused
  cases unused <;>
    exact ⟨sound, ⟨.of_empty rfl, Nat.zero_le _, Nat.zero_le _⟩, rfl, fun _ _ => rfl,
      fun _ => Nat.zero_le _⟩

theorem DispatchRun.capped {start : Coordinator} (unused : start.Unused)
    (run : DispatchRun limits fixed (DispatchEvent.Spares limits) start state leases) :
    state.Capped limits fixed leases := by
  induction run with
  | refl => exact .of_unused unused
  | operation _ operation uses fresh allowed ran induction =>
      exact induction.operation uses fresh allowed ran
  | rollUtcDay _ now allowed induction => exact induction.rollUtcDay allowed

end

/-- Where every claim finds its calls free and the clock goes on, every cap holds in
every state, and no day has more leases than it may. -/
theorem concurrency_caps_hold (limits : ClaimLimits) (fixed : FixedCatalog)
    (start state : Coordinator) (leases : ℤ → Nat) (unused : start.Unused)
    (run : DispatchRun limits fixed (DispatchEvent.Spares limits) start state leases) :
    state.WithinCaps limits fixed ∧ ∀ day, leases day ≤ limits.maxLeasesPerUtcDay :=
  ⟨(run.capped unused).within, (run.capped unused).daily⟩

theorem readCandidates_eq : QueueIndex.readCandidates = fun jobs model after limit queue =>
    match queue.scans model with
    | [scan] => readScan jobs after limit scan
    | scans => scans.foldl (fun candidates scan =>
        (candidates.merge (readScan jobs after limit scan) Candidate.notAfter).take limit) [] := by
  funext jobs model after limit queue
  unfold QueueIndex.readCandidates
  split
  · next scan single =>
    rw [single, List.foldl_cons, List.foldl_nil, List.nil_merge]
    unfold readScan
    rw [List.take_take, Nat.min_self]
  · rfl

/-! ### Two calls where one is free -/

/-- A deployment that allows one call at a time, and bundles of four. -/
def singleCallWorker : WorkerConfig where
  maxInFlightLlmCalls := some 1
  maxUnroutableReconcilePerTick := some 0
  ingressReservations := .lanes [("tagger", { dailyWriteUnits := some 100 })]
  bearerToken := "token"

theorem singleCallWorker_accepted : validateConfig singleCallWorker = .ok () := by decide +kernel

def ownModel (job : JobRow) : String := "model-" ++ job.id

def ownModelLanes : LaneCatalog := { oneModelCatalog with
  modelsForQueuedJob := fun job => [ownModel job] }

/-- A route for the model of each job, without limits of its own. -/
def ownRoute (routeId : String) : ClaimRoute where
  routeId := routeId
  model := routeId
  catalog := { provider := "provider" }

def ownRoutes : FixedCatalog where
  routesById := fun routeId => some (ownRoute routeId)
  providers := fun _ => none

def ownRouteCatalog : ClaimCatalog where
  lanes := ownModelLanes
  digest := "catalog"
  routesForUnroutableJob := fun job => [ownModel job]
  routesById := ownRoutes.routesById
  providers := ownRoutes.providers
  rankModelsByCapacity := fun _ => [⟨"model-a", false⟩, ⟨"model-b", false⟩]
  routesEligibleFor := fun _ job => [ownRoute (ownModel job)]
  structuralRoutesFor := fun _ job => [ownRoute (ownModel job)]
  calibration := fun _ _ => {}

theorem ownRouteCatalog_serves : ownRouteCatalog.Serves ownRoutes where
  routesById := rfl
  providers := rfl
  eligible := by
    intro ledgers job route member
    rw [List.mem_singleton.mp member]
    exact ⟨ownRoute (ownModel job), rfl, rfl⟩

def firstClaim : ClaimCall where
  now := 2000
  wallClock := 2000
  windowSeconds := 25
  rowsWrittenToday := 0
  rowsAtReconcile := 0
  bundleId := "bundle"
  executionToken := "execution"
  leaseToken := fun jobId => "lease-" ++ jobId
  frontier := fun _ => none

def submitJobs (jobIds : List String) : Operation :=
  .enqueueBatch twoLanes ownModelLanes 1000 smallRows
    (jobIds.map fun jobId => laneJob jobId "tagger")

def claimOnce (limits : ClaimLimits) : Operation :=
  .claimDispatchWindow utcCalendar limits ownRouteCatalog firstClaim

def afterSubmit (jobIds : List String) : Option Coordinator :=
  (submitJobs jobIds).run emptyCoordinator

def afterClaim (limits : ClaimLimits) (jobIds : List String) : Option Coordinator :=
  (afterSubmit jobIds).bind fun state => (claimOnce limits).run state

variable {after : Coordinator}

theorem DispatchRun.of_afterClaim {limits : ClaimLimits} {jobIds : List String}
    {permitted : Coordinator → DispatchEvent → Prop}
    (submits : permitted emptyCoordinator (.operation (submitJobs jobIds)))
    (claims : ∀ state ∈ afterSubmit jobIds, permitted state (.operation (claimOnce limits)))
    (unbundled : (afterSubmit jobIds).all (fun state => state.bundles.isEmpty) = true)
    (ran : afterClaim limits jobIds = some after) :
    ∃ leases, DispatchRun limits ownRoutes permitted emptyCoordinator after leases := by
  obtain ⟨state, submitted, claimed⟩ := Option.bind_eq_some_iff.mp ran
  rw [submitted, Option.all_some, List.isEmpty_iff] at unbundled
  refine ⟨_, .operation (.operation .refl (submitJobs jobIds) trivial trivial submits submitted)
    (claimOnce limits) ⟨rfl, ownRouteCatalog_serves⟩ ?_ (claims state submitted) claimed⟩
  show firstClaim.bundleId ∉ state.bundles.keys
  rw [unbundled]
  exact List.not_mem_nil

/-- One job queued is one call, and two are two. -/
theorem afterClaim_calls :
    (afterClaim singleCallWorker.claimLimits ["a"]).isSome = true ∧
      (afterClaim singleCallWorker.claimLimits ["a", "b"]).map Coordinator.activeCalls = some 2 := by
  unfold afterClaim claimOnce Operation.run claimDispatchWindow reconcileAndClaim claimWithin
    dispatchJobs selectJobs offerModel
  rw [readCandidates_eq]
  decide +kernel

/-- With one job queued, the one call that is free is enough. -/
theorem oneCall_run (ran : afterClaim singleCallWorker.claimLimits ["a"] = some after) :
    ∃ leases, DispatchRun singleCallWorker.claimLimits ownRoutes
      (DispatchEvent.Spares singleCallWorker.claimLimits) emptyCoordinator after leases := by
  have onward : emptyCoordinator.scheduler.utcDay ≤ currentUtcDay 1000 := by decide +kernel
  have spares : (afterSubmit ["a"]).all (fun state =>
      decide (state.scheduler.utcDay ≤ currentUtcDay firstClaim.now ∧
        SparesCalls singleCallWorker.claimLimits ownModelLanes firstClaim state)) = true := by
    decide +kernel
  refine DispatchRun.of_afterClaim ⟨?_, trivial⟩ ?_ (by decide +kernel) ran
  · rintro now ⟨⟩
    exact onward
  · intro state submitted
    rw [Option.mem_def.mp submitted, Option.all_some] at spares
    obtain ⟨today, free⟩ := of_decide_eq_true spares
    refine ⟨?_, fun _ => free⟩
    rintro now ⟨⟩
    exact today

theorem concurrency_caps_hold_oneCall :
    ∃ after, afterClaim singleCallWorker.claimLimits ["a"] = some after ∧
      after.WithinCaps singleCallWorker.claimLimits ownRoutes := by
  obtain ⟨after, ran⟩ := Option.isSome_iff_exists.mp afterClaim_calls.1
  obtain ⟨leases, run⟩ := oneCall_run ran
  exact ⟨after, ran, (concurrency_caps_hold singleCallWorker.claimLimits ownRoutes emptyCoordinator
    after leases (.legacy none (.inl rfl) 0) run).1⟩

/-- A claim that finds one call free takes two. -/
theorem in_flight_cap_overrun :
    ¬ ∀ (config : WorkerConfig) (fixed : FixedCatalog) (start state : Coordinator)
      (leases : ℤ → Nat), validateConfig config = .ok () → start.Unused →
      DispatchRun config.claimLimits fixed (fun _ _ => True) start state leases →
        state.WithinCaps config.claimLimits fixed ∧
          ∀ day, leases day ≤ config.claimLimits.maxLeasesPerUtcDay := by
  intro claim
  obtain ⟨after, ran, calls⟩ := Option.map_eq_some_iff.mp afterClaim_calls.2
  have reached : ∃ leases, DispatchRun singleCallWorker.claimLimits ownRoutes (fun _ _ => True)
      emptyCoordinator after leases :=
    DispatchRun.of_afterClaim trivial (fun _ _ => trivial) (by decide +kernel) ran
  obtain ⟨leases, run⟩ := reached
  have within := (claim singleCallWorker ownRoutes emptyCoordinator after leases
    singleCallWorker_accepted (.legacy none (.inl rfl) 0) run).1.calls
  rw [calls] at within
  exact absurd within (by decide)

end CityPods.Dispatch
