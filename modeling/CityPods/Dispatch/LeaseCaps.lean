import CityPods.Dispatch.LeaseCounts
import CityPods.Dispatch.WorkerConfig

/-! # Caps on leases

What is leased on a route, on a provider's routes, in a bundle and on a day, over
whole runs of the coordinator. Every cap but two holds whatever runs. A claim asks
only once whether a call is free and may then take a whole bundle of them, and a
clock that falls behind the scheduler's day starts that day over.
-/

namespace CityPods.Dispatch

open Foundation

/-! ## The caps -/

structure JobTables.WithinCaps (limits : ClaimLimits) (fixed : FixedCatalog) (tables : JobTables) :
    Prop where
  route : ∀ routeId limit, fixed.RouteLimit routeId limit →
    tables.leasesWhere (fun entry => decide (entry.leaseRouteId = routeId)) ≤ limit
  provider : ∀ provider limit, fixed.ProviderLimit provider limit →
    tables.leasesWhere (fun entry => fixed.onProvider provider entry.leaseRouteId) ≤ limit
  bundle : ∀ bundleId,
    tables.leasesWhere (fun entry => decide (entry.bundleId = bundleId)) ≤ limits.maxBundleJobs
  lanes : ∀ bundleId, (tables.lanesOf bundleId).length ≤ limits.maxConcurrentRouteLanes
  laneJobs : ∀ bundleId routeId,
    tables.leasesWhere (fun entry =>
      decide (entry.bundleId = bundleId ∧ entry.leaseRouteId = routeId)) ≤
        limits.maxJobsPerRoutePerBundle

def Coordinator.activeCalls (state : Coordinator) : Nat :=
  (state.bundles.values.map Bundle.activeCallCount).sum

structure Coordinator.WithinCaps (limits : ClaimLimits) (fixed : FixedCatalog)
    (state : Coordinator) : Prop where
  leases : state.tables.WithinCaps limits fixed
  bundles : state.bundles.length ≤ limits.maxActiveBundles
  calls : state.activeCalls ≤ limits.maxInFlightLlmCalls

section

variable {calendar : Calendar} {limits : ClaimLimits} {fixed : FixedCatalog}
  {catalog : ClaimCatalog} {call : ClaimCall} {before after : JobTables}

theorem JobTables.WithinCaps.of_subset
    (within : before.WithinCaps limits fixed) (later : after.Coherent)
    (subset : after.heldLeases ⊆ before.heldLeases) : after.WithinCaps limits fixed := by
  have fewer (test : LeaseEntry → Bool) : after.leasesWhere test ≤ before.leasesWhere test :=
    later.leasesWhere_le fun held member _ => subset member
  refine ⟨fun routeId limit limited => ?_, fun provider limit limited => ?_, fun bundleId => ?_,
    fun bundleId => ?_, fun bundleId routeId => ?_⟩
  · exact (fewer _).trans (within.route routeId limit limited)
  · exact (fewer _).trans (within.provider provider limit limited)
  · exact (fewer _).trans (within.bundle bundleId)
  · refine (length_lanesOf_le fun held member own => ?_).trans (within.lanes bundleId)
    rw [← own]
    exact mem_lanesOf (subset member)
  · exact (fewer _).trans (within.laneJobs bundleId routeId)

theorem JobTables.WithinCaps.keeps
    (within : before.WithinCaps limits fixed) (coherent : before.Coherent)
    (later : after.Coherent) (keeps : before.KeepsLeases after) :
    after.WithinCaps limits fixed :=
  within.of_subset later (keeps.subset coherent later)

variable {state : Coordinator} {bundleJobLimit : Nat}

theorem JobTables.WithinCaps.empty
    (within : state.tables.WithinCaps limits fixed) (coherent : state.tables.Coherent)
    (bundled : state.Bundled) (serves : catalog.Serves fixed) :
    WithinLimits limits fixed catalog state bundleJobLimit [] := by
  refine .empty (fun routeId limit limited => ?_) fun provider limit limited => ?_
  · rw [bundled.leaseCountOn_eq coherent]
    exact within.route routeId limit limited
  · rw [bundled.inFlightOfProvider_eq coherent serves limited.1]
    exact within.provider provider limit limited

/-! ## The leases of a claim -/

theorem foldlM_length_le {σ α : Type} (count : σ → Nat) (weight : α → Nat) {step : σ → α → Option σ}
    (each : ∀ state item next, step state item = some next → count next ≤ count state + weight item)
    {items : List α} {start finish : σ} (ran : items.foldlM step start = some finish) :
    count finish ≤ count start + (items.map weight).sum := by
  induction items generalizing start with
  | nil =>
      cases ran
      exact Nat.le_refl _
  | cons item rest induction =>
      rw [List.foldlM_cons, Option.bind_eq_bind] at ran
      obtain ⟨next, stepped, later⟩ := Option.bind_eq_some_iff.mp ran
      have first := each start item next stepped
      have others := induction later
      rw [List.map_cons, List.sum_cons]
      omega

theorem leaseJob_length {route : ClaimRoute} {lane next : LaneProgress} {entry : Chosen}
    (step : leaseJob calendar limits catalog call route lane entry = some next) :
    next.leased.length ≤ lane.leased.length + 1 := by
  unfold leaseJob at step
  split at step
  · cases step
    exact Nat.le_succ _
  · split at step
    · cases step
      exact Nat.le_succ _
    · unfold leaseAt at step
      obtain ⟨tables, _, rfl⟩ := Option.map_eq_some_iff.mp step
      exact List.length_append.le

variable {lanes : LanesProgress}

theorem leaseLane_length {next : LanesProgress} {lane : String × List Chosen}
    (step : leaseLane calendar limits catalog call lanes lane = some next) :
    next.leased.length ≤ lanes.leased.length + lane.2.length := by
  unfold leaseLane at step
  cases jobs : lane.2 with
  | nil =>
      rw [jobs] at step
      cases step
      exact Nat.le_refl _
  | cons first rest =>
      rw [jobs] at step
      obtain ⟨after, ran, rfl⟩ := Option.map_eq_some_iff.mp step
      have bounded := foldlM_length_le (fun lane : LaneProgress => lane.leased.length)
        (fun _ : Chosen => 1) (fun _ _ _ => leaseJob_length) ran
      show (lanes.leased ++ after.leased).length ≤ _
      rw [List.length_append]
      simp only [List.map_const', List.sum_replicate, nsmul_eq_mul, Nat.cast_id, mul_one,
        List.length_nil, zero_add] at bounded
      exact Nat.add_le_add_left bounded _

variable {chosen : List Chosen}

theorem leaseLanes_length
    (ran : leaseLanes calendar limits catalog call state chosen = some lanes) :
    lanes.leased.length ≤ chosen.length := by
  unfold leaseLanes at ran
  have bounded := foldlM_length_le (fun lanes : LanesProgress => lanes.leased.length)
    (fun lane : String × List Chosen => lane.2.length) (fun _ _ _ => leaseLane_length) ran
  have perm := Dict.grouped_groupOn_perm (fun entry : Chosen => entry.route.routeId) chosen
  have total := perm.length_eq
  unfold Dict.grouped at total
  rw [List.length_flatMap] at total
  rw [← total]
  simpa using bounded

def Chosen.lease (limits : ClaimLimits) (call : ClaimCall) (entry : Chosen) : String × LeaseEntry :=
  (entry.job.id, leaseEntryFor limits call entry.route.routeId)

def LeasesChosen (limits : ClaimLimits) (call : ClaimCall) (chosen : List Chosen) (jobId : String)
    (before after : Option JobRow) : Prop :=
  ∀ row ∈ after, ∀ entry, row.leaseEntry = some entry →
    (∃ old ∈ before, old.leaseEntry = some entry) ∨
      (jobId, entry) ∈ chosen.map (Chosen.lease limits call)

theorem leaseLanes_leases (coherent : state.tables.Coherent) (distinct : (chosenIds chosen).Nodup)
    (offered : ∀ entry ∈ chosen, state.tables.Offers entry.job)
    (ran : leaseLanes calendar limits catalog call state chosen = some lanes) :
    lanes.tables.heldLeases ⊆
      state.tables.heldLeases ++ chosen.map (Chosen.lease limits call) := by
  have moves : CountedTables.Moves (Change.Chosen limits call chosen) ⟨state.tables, 0⟩
      ⟨lanes.tables, 0 - lanes.leased.length⟩ := leaseLanes_moves coherent distinct offered ran
  have later := moves.coherent coherent
  rintro ⟨jobId, entry⟩ member
  obtain ⟨job, found, registered⟩ := later.mem_heldLeases.mp member
  have related : LeasesChosen limits call chosen jobId (state.tables.jobs.get? jobId)
      (lanes.tables.jobs.get? jobId) := by
    refine moves.relates (?_ : ∀ row, LeasesChosen limits call chosen jobId row row) ?_ jobId ?_
    · exact fun row job member entry registered => .inl ⟨job, member, registered⟩
    · intro first second third left right row member entry registered
      rcases right row member entry registered with ⟨old, before, same⟩ | new
      · exact left old before entry same
      · exact .inr new
    · rintro change ⟨leased, taken, listed, named, on⟩ here row member entry registered
      rw [on row member, Option.some.injEq] at registered
      refine .inr (List.mem_map.mpr ⟨taken, listed, ?_⟩)
      unfold Chosen.lease
      rw [named, here, registered]
  rcases related job found entry registered with ⟨old, before, same⟩ | new
  · exact List.mem_append_left _ (coherent.mem_heldLeases.mpr ⟨old, before, same⟩)
  · exact List.mem_append_right _ new

theorem length_le_queuedJobs {tables : JobTables}
    (distinct : (chosenIds chosen).Nodup) (offered : ∀ entry ∈ chosen, tables.Offers entry.job) :
    (chosen.length : ℤ) ≤ tables.queuedJobs := by
  have inside : chosenIds chosen ⊆
      (tables.jobs.values.filter fun job => decide (job.state = .queued)).map JobRow.id := by
    intro jobId member
    obtain ⟨entry, listed, rfl⟩ := List.mem_map.mp member
    obtain ⟨found, queued⟩ := offered entry listed
    refine List.mem_map_of_mem (List.mem_filter.mpr ⟨?_, decide_eq_true queued⟩)
    exact List.mem_map_of_mem (Dict.get?_eq_some_mem found)
  have bounded := (List.subperm_of_subset distinct inside).length_le
  rw [List.length_map] at bounded
  rw [tables.queuedJobs_eq]
  unfold chosenIds at bounded
  rw [List.length_map] at bounded
  exact_mod_cast bounded

/-! ## What a claim comes to -/

/-- What a claim's phases before the leasing leave: no new lease, and the same bundles. -/
structure Coordinator.Carries (before after : Coordinator) : Prop where
  leases : before.tables.KeepsLeases after.tables
  queued : after.tables.queuedJobs ≤ before.tables.queuedJobs
  bundles : after.bundles = before.bundles
  utcDay : after.scheduler.utcDay = before.scheduler.utcDay
  leaseCountToday : after.scheduler.leaseCountToday = before.scheduler.leaseCountToday

theorem Coordinator.Carries.trans {first second third : Coordinator} (left : first.Carries second)
    (right : second.Carries third) : first.Carries third where
  leases := left.leases.trans right.leases
  queued := right.queued.trans left.queued
  bundles := right.bundles.trans left.bundles
  utcDay := right.utcDay.trans left.utcDay
  leaseCountToday := right.leaseCountToday.trans left.leaseCountToday

/-- The outcome of a claim after its recovery: nothing is leased, or some of the jobs
chosen in a state within every limit. -/
inductive ClaimOutcome (limits : ClaimLimits) (fixed : FixedCatalog) (call : ClaimCall)
    (bundleJobLimit : Nat) (before after : Coordinator) (leased : Nat) : Prop
  | idle (carries : before.Carries after) (nothing : leased = 0)
  | claimed (catalog : ClaimCatalog) (middle : Coordinator) (chosen : List Chosen)
      (serves : catalog.Serves fixed) (coherent : middle.tables.Coherent) (bundled : middle.Bundled)
      (carries : before.Carries middle)
      (within : WithinLimits limits fixed catalog middle bundleJobLimit chosen)
      (waiting : (chosen.length : ℤ) ≤ middle.tables.queuedJobs)
      (few : leased ≤ chosen.length)
      (spare : middle.bundles.length < limits.maxActiveBundles)
      (calls : middle.activeCalls < limits.maxInFlightLlmCalls)
      (leases : after.tables.heldLeases ⊆
        middle.tables.heldLeases ++ chosen.map (Chosen.lease limits call))
      (bundles : ∃ bundle, bundle.activeCallCount = leased ∧
        after.bundles = middle.bundles.set call.bundleId bundle)
      (utcDay : after.scheduler.utcDay = middle.scheduler.utcDay)
      (leaseCountToday :
        after.scheduler.leaseCountToday = middle.scheduler.leaseCountToday + leased)

theorem Coordinator.Carries.of_moves {before after : Coordinator} {queued : ℤ} {failed : Nat}
    {allowed : Change → Prop} (coherent : before.tables.Coherent)
    (moves : CountedTables.Moves allowed ⟨before.tables, queued⟩ ⟨after.tables, queued - failed⟩)
    (keeps : ∀ change, allowed change → KeepsLease change.before change.after)
    (bundles : after.bundles = before.bundles)
    (utcDay : after.scheduler.utcDay = before.scheduler.utcDay)
    (leaseCountToday : after.scheduler.leaseCountToday = before.scheduler.leaseCountToday) :
    before.Carries after where
  leases := moves.keepsLeases keeps
  queued := by
    have balanced : queued - failed - after.tables.queuedJobs =
        queued - before.tables.queuedJobs := moves.balanced coherent
    omega
  bundles := bundles
  utcDay := utcDay
  leaseCountToday := leaseCountToday

theorem Coordinator.Carries.refl (state : Coordinator) : state.Carries state :=
  ⟨.refl _, le_refl _, rfl, rfl, rfl⟩

theorem ClaimOutcome.after_carries {before middle after : Coordinator} {leased : Nat}
    (outcome : ClaimOutcome limits fixed call bundleJobLimit middle after leased)
    (carries : before.Carries middle) :
    ClaimOutcome limits fixed call bundleJobLimit before after leased := by
  cases outcome with
  | idle later nothing => exact .idle (carries.trans later) nothing
  | claimed catalog inner chosen serves coherent bundled later within waiting few spare calls leases
      bundles utcDay count =>
      exact .claimed catalog inner chosen serves coherent bundled (carries.trans later) within waiting
        few spare calls leases bundles utcDay count

section

variable {queuedDelta : ℤ} {state after : Coordinator} {reply : ClaimReply} {bundleJobLimit : Nat}

theorem recordEmpty_outcome (reason : ClaimReason) :
    ClaimOutcome limits fixed call bundleJobLimit state (recordEmpty reason queuedDelta state).1
      (recordEmpty reason queuedDelta state).2.jobs.length :=
  .idle ⟨.refl _, le_refl _, rfl, rfl, rfl⟩ rfl

theorem dispatchJobs_outcome (coherent : state.tables.Coherent) (bundled : state.Bundled)
    (serves : catalog.Serves fixed) (within : state.tables.WithinCaps limits fixed)
    (spare : state.bundles.length < limits.maxActiveBundles)
    (calls : state.activeCalls < limits.maxInFlightLlmCalls)
    (step : dispatchJobs calendar limits catalog call bundleJobLimit queuedDelta state =
      some (after, reply)) :
    ClaimOutcome limits fixed call bundleJobLimit state after reply.jobs.length := by
  unfold dispatchJobs at step
  dsimp only at step
  have touched : state.Carries (touchLedgers catalog call state) :=
    ⟨.refl _, le_refl _, rfl, rfl, rfl⟩
  have known : (touchLedgers catalog call state).tables.Coherent := coherent
  have active : (touchLedgers catalog call state).Bundled := ⟨bundled.nodup, bundled.leased⟩
  have spared : (touchLedgers catalog call state).bundles.length < limits.maxActiveBundles := spare
  have freed : (touchLedgers catalog call state).activeCalls < limits.maxInFlightLlmCalls := calls
  have capped : (touchLedgers catalog call state).tables.WithinCaps limits fixed := within
  refine ClaimOutcome.after_carries ?_ touched
  generalize touchLedgers catalog call state = start at step known active spared freed capped
  have empty : WithinLimits limits fixed catalog start bundleJobLimit [] :=
    capped.empty known active serves
  have sound : Selection.Sound calendar limits catalog call start _ :=
    selectJobs_sound known bundleJobLimit
  have limited : Selection.Within limits fixed catalog start bundleJobLimit
      (selectJobs calendar limits catalog call start bundleJobLimit) :=
    selectJobs_within serves empty
  generalize selectJobs calendar limits catalog call start bundleJobLimit = selection
    at step sound limited
  obtain ⟨distinct, offered⟩ := drainPass_spec sound bundleJobLimit
  have chosen := drainPass_within serves empty limited
  generalize drainPass limits catalog start bundleJobLimit selection = taken
    at step distinct offered chosen
  obtain ⟨tables, ran, leased⟩ := Option.bind_eq_some_iff.mp step
  have moved := failOversize_moves known sound.oversize sound.oversizeRows ran 0
  have kept : start.tables.KeepsLeases tables := moved.keepsLeases fun _ both =>
    .of_reconciled both.2
  have later : tables.Coherent := moved.coherent known
  have failed : start.Carries { start with tables := tables } :=
    .of_moves known moved (fun _ both => .of_reconciled both.2) rfl rfl rfl
  unfold leaseChosen at leased
  split at leased
  · cases leased
    exact (recordEmpty_outcome _).after_carries failed
  obtain ⟨lanes, sequenced, recorded⟩ := Option.map_eq_some_iff.mp leased
  split at recorded
  · cases recorded
    exact (recordEmpty_outcome _).after_carries failed
  cases recorded
  have remains (entry : Chosen) (member : entry ∈ taken) : tables.Offers entry.job := by
    obtain ⟨here, apart⟩ := offered entry member
    have unchanged : start.tables.jobs.get? entry.job.id = tables.jobs.get? entry.job.id :=
      moved.unchanged fun change permitted named => apart (named ▸ permitted.1)
    exact ⟨unchanged.symm.trans here.1, here.2⟩
  refine .claimed catalog start taken serves known active (.refl start) chosen ?_ (leaseLanes_length sequenced) spared
    freed ?_ ⟨_, rfl, rfl⟩ rfl rfl
  · exact length_le_queuedJobs distinct fun entry member => (offered entry member).1
  · intro held member
    rcases List.mem_append.mp (leaseLanes_leases later distinct remains sequenced member) with
      old | new
    · exact List.mem_append_left _ (kept.subset known later old)
    · exact List.mem_append_right _ new

theorem claimWithin_outcome (coherent : state.tables.Coherent) (bundled : state.Bundled)
    (serves : catalog.Serves fixed) (within : state.tables.WithinCaps limits fixed)
    (step : claimWithin calendar limits catalog call bundleJobLimit queuedDelta state =
      some (after, reply)) :
    ClaimOutcome limits fixed call bundleJobLimit state after reply.jobs.length := by
  unfold claimWithin at step
  split at step
  · cases step
    exact recordEmpty_outcome _
  · next spare =>
    split at step
    · cases step
      exact recordEmpty_outcome _
    · next calls =>
      exact dispatchJobs_outcome coherent bundled serves within (Nat.lt_of_not_le spare)
        (Nat.lt_of_not_le calls) step

theorem reconcileAndClaim_outcome {begun : Coordinator} {reaped : Nat}
    (coherent : state.tables.Coherent) (bundled : state.Bundled)
    (serves : catalog.Serves fixed) (within : state.tables.WithinCaps limits fixed)
    (step : reconcileAndClaim calendar limits catalog call begun reaped state =
      some (after, reply)) :
    ClaimOutcome limits fixed call (limits.bundleJobLimit begun) state after
      reply.jobs.length := by
  unfold reconcileAndClaim at step
  dsimp only at step
  split at step
  · obtain ⟨⟨middle, failed⟩, ran, claimed⟩ := Option.bind_eq_some_iff.mp step
    obtain ⟨moved, frame⟩ := reconcileUnroutableJobs_moves coherent ran 0
    have later : middle.tables.Coherent := moved.coherent coherent
    have kept : state.tables.KeepsLeases middle.tables := moved.keepsLeases fun _ => .of_reconciled
    have carries : state.Carries middle :=
      .of_moves coherent moved (fun _ => .of_reconciled) frame.bundles frame.utcDay frame.leaseCountToday
    have active : middle.Bundled :=
      bundled.of_moves moved rfl rfl (fun _ => .of_reconciled) frame.bundles
    exact (claimWithin_outcome later active serves (within.keeps coherent later kept)
      claimed).after_carries carries
  · rw [Option.bind_some] at step
    exact claimWithin_outcome coherent bundled serves within step

/-! ## One claim -/

variable {before : Coordinator} {leased : Nat}

theorem leases_apart {middle : Coordinator} (bundled : middle.Bundled)
    (coherent : middle.tables.Coherent) (fresh : call.bundleId ∉ middle.bundles.keys)
    (leases : after.tables.heldLeases ⊆
      middle.tables.heldLeases ++ chosen.map (Chosen.lease limits call))
    (held : String × LeaseEntry) (member : held ∈ after.tables.heldLeases) :
    if held.2.bundleId = call.bundleId then held ∈ chosen.map (Chosen.lease limits call)
    else held ∈ middle.tables.heldLeases := by
  rcases List.mem_append.mp (leases member) with old | new
  · obtain ⟨job, found, registered⟩ := coherent.mem_heldLeases.mp old
    obtain ⟨entry, bundle, own, active, _⟩ := bundled.leased held.1 job found
      (JobRow.leased_of_leaseEntry registered).1
    rw [registered, Option.some.injEq] at own
    rw [if_neg]
    · exact old
    · intro same
      refine fresh (Dict.get?_isSome_iff_mem_keys.mp ?_)
      rw [← same, own, active]
      rfl
  · obtain ⟨entry, _, same⟩ := List.mem_map.mp new
    rw [if_pos (by rw [← same]; rfl)]
    exact new

theorem ClaimOutcome.leases_withinCaps
    (outcome : ClaimOutcome limits fixed call bundleJobLimit before after leased)
    (coherent : before.tables.Coherent) (later : after.tables.Coherent)
    (within : before.tables.WithinCaps limits fixed) (fresh : call.bundleId ∉ before.bundles.keys)
    (bounded : bundleJobLimit ≤ limits.maxBundleJobs) : after.tables.WithinCaps limits fixed := by
  cases outcome with
  | idle carries _ => exact within.keeps coherent later carries.leases
  | claimed catalog middle chosen serves known bundled carries limited _ _ _ _ leases _ _ _ =>
      have capped := within.keeps coherent known carries.leases
      rw [← carries.bundles] at fresh
      have apart := leases_apart bundled known fresh leases
      have total (test : LeaseEntry → Bool) : after.tables.leasesWhere test ≤
          middle.tables.leasesWhere test +
            chosen.countP fun entry => test (entry.lease limits call).2 := by
        refine (later.leasesWhere_le fun held member _ => leases member).trans_eq ?_
        rw [List.countP_append, List.countP_map]
        rfl
      -- Leases that are all in one bundle are all old, or all chosen.
      have inBundle {bundleId : String} {test : LeaseEntry → Bool} {cap : Nat}
          (own : ∀ entry, test entry = true → entry.bundleId = bundleId)
          (old : middle.tables.leasesWhere test ≤ cap)
          (new : (chosen.countP fun entry => test (entry.lease limits call).2) ≤ cap) :
          after.tables.leasesWhere test ≤ cap := by
        by_cases mine : bundleId = call.bundleId
        · refine (later.leasesWhere_le fun held member passes => ?_).trans
            ((List.countP_map ..).trans_le new)
          have placed := apart held member
          rwa [if_pos ((own held.2 passes).trans mine)] at placed
        · refine (later.leasesWhere_le fun held member passes => ?_).trans old
          have placed := apart held member
          rwa [if_neg fun same => mine ((own held.2 passes).symm.trans same)] at placed
      refine ⟨fun routeId limit limitedBy => ?_, fun provider limit limitedBy => ?_,
        fun bundleId => ?_, fun bundleId => ?_, fun bundleId routeId => ?_⟩
      · have tested := limited.route routeId limit limitedBy
        rw [bundled.leaseCountOn_eq known] at tested
        refine (total _).trans ((Nat.add_le_add_left (le_of_eq ?_) _).trans tested)
        exact List.countP_eq_length_filter
      · have tested := limited.provider provider limit limitedBy
        rw [bundled.inFlightOfProvider_eq known serves limitedBy.1] at tested
        refine (total _).trans ((Nat.add_le_add_left (le_of_eq ?_) _).trans tested)
        unfold countOfProvider
        rw [← List.countP_eq_length_filter]
        exact List.countP_congr fun entry member => by
          rw [← limited.served entry member provider]
          rfl
      · exact inBundle (fun _ => of_decide_eq_true) (capped.bundle bundleId)
          (List.countP_le_length.trans (limited.bundle.trans bounded))
      · by_cases mine : bundleId = call.bundleId
        · refine (length_lanesOf_le fun held member own => ?_).trans limited.lanes
          have placed := apart held member
          rw [if_pos (own.trans mine)] at placed
          obtain ⟨entry, listed, rfl⟩ := List.mem_map.mp placed
          exact List.mem_dedup.mpr (List.mem_map_of_mem listed)
        · refine (length_lanesOf_le fun held member own => ?_).trans (capped.lanes bundleId)
          have placed := apart held member
          rw [if_neg fun same => mine (own.symm.trans same)] at placed
          rw [← own]
          exact mem_lanesOf placed
      · refine inBundle (fun _ both => (of_decide_eq_true both).1) (capped.laneJobs bundleId routeId)
          (le_trans ?_ (limited.laneJobs routeId))
        unfold countInBundle
        rw [← List.countP_eq_length_filter]
        exact List.countP_mono_left fun entry _ both =>
          decide_eq_true (of_decide_eq_true both).2

theorem activeCalls_eq (state : Coordinator) :
    state.activeCalls = Dict.total Bundle.activeCallCount state.bundles := by
  unfold Coordinator.activeCalls Dict.values Dict.total
  rw [List.map_map]
  rfl

theorem ClaimOutcome.bundles_withinCaps
    (outcome : ClaimOutcome limits fixed call bundleJobLimit before after leased)
    (within : before.WithinCaps limits fixed) (fresh : call.bundleId ∉ before.bundles.keys)
    (spares : before.bundles.length < limits.maxActiveBundles →
      before.activeCalls < limits.maxInFlightLlmCalls →
        before.activeCalls + min bundleJobLimit before.tables.queuedJobs.toNat ≤
          limits.maxInFlightLlmCalls) :
    after.bundles.length ≤ limits.maxActiveBundles ∧
      after.activeCalls ≤ limits.maxInFlightLlmCalls := by
  cases outcome with
  | idle carries _ =>
      unfold Coordinator.activeCalls
      rw [carries.bundles]
      exact ⟨within.bundles, within.calls⟩
  | claimed catalog middle chosen serves known bundled carries limited waiting few spare calls leases
      bundles _ _ =>
      obtain ⟨bundle, holds, written⟩ := bundles
      have same : middle.activeCalls = before.activeCalls := by
        unfold Coordinator.activeCalls
        rw [carries.bundles]
      have absent : before.bundles.get? call.bundleId = none := Dict.get?_eq_none_iff.mpr fresh
      have total : after.activeCalls = before.activeCalls + leased := by
        rw [activeCalls_eq, activeCalls_eq, written, carries.bundles, Dict.total_set_new _ absent,
          holds]
      have queued := carries.queued
      have taken := limited.bundle
      rw [carries.bundles] at spare
      rw [same] at calls
      have free := spares spare calls
      refine ⟨?_, ?_⟩
      · rw [written, carries.bundles]
        exact (Dict.length_set_le _ _ _).trans spare
      · rw [total]
        omega

theorem ClaimOutcome.counts
    (outcome : ClaimOutcome limits fixed call bundleJobLimit before after leased) :
    after.scheduler.utcDay = before.scheduler.utcDay ∧
      after.scheduler.leaseCountToday = before.scheduler.leaseCountToday + leased ∧
        leased ≤ bundleJobLimit := by
  cases outcome with
  | idle carries nothing =>
      subst nothing
      exact ⟨carries.utcDay, carries.leaseCountToday, Nat.zero_le _⟩
  | claimed catalog middle chosen serves known bundled carries limited waiting few spare calls leases
      bundles utcDay count =>
      exact ⟨utcDay.trans carries.utcDay, count.trans (by rw [carries.leaseCountToday]),
        few.trans limited.bundle⟩

end

end

end CityPods.Dispatch
