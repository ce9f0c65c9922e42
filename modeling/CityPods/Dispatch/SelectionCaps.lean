import CityPods.Dispatch.Selections

/-! # The limits of a selection

A claim tests a route when it offers a job to it, against what is leased and what
it has chosen so far. However the jobs and the models follow one another, and in
the drain pass too, what it has chosen stays within the limits of the bundle, the
lanes, the routes and their providers.
-/

namespace CityPods.Dispatch

open Foundation

/-! ## The catalog that stays -/

/-- The routes and providers of a catalog, which pauses do not change. -/
structure FixedCatalog where
  routesById : String → Option ClaimRoute
  providers : String → Option ProviderConfig

namespace FixedCatalog

variable (fixed : FixedCatalog)

def RouteLimit (routeId : String) (limit : Nat) : Prop :=
  0 < limit ∧ ∃ route, fixed.routesById routeId = some route ∧ route.concurrency = some limit

def ProviderLimit (provider : String) (limit : Nat) : Prop :=
  provider ≠ "" ∧ 0 < limit ∧ ∀ routeId route, fixed.routesById routeId = some route →
    route.catalog.provider = provider →
      ((fixed.providers provider).bind ProviderConfig.concurrency).or route.providerConcurrency =
        some limit

end FixedCatalog

def FixedCatalog.onProvider (fixed : FixedCatalog) (provider routeId : String) : Bool :=
  match fixed.routesById routeId with
  | some route => decide (route.catalog.provider = provider)
  | none => false

/-- A catalog as the pauses of a claim leave it: every route that may take a job is
the one of the fixed catalog, under the model it was asked for. -/
structure ClaimCatalog.Serves (catalog : ClaimCatalog) (fixed : FixedCatalog) : Prop where
  routesById : catalog.routesById = fixed.routesById
  providers : catalog.providers = fixed.providers
  eligible : ∀ ledgers job, ∀ route ∈ catalog.routesEligibleFor ledgers job,
    ∃ stored, fixed.routesById route.routeId = some stored ∧
      route = { stored with routeId := route.routeId, model := route.model }

/-! ## Counts -/

theorem atLimit_eq_false_iff {limit : Option Nat} {count : Nat} :
    atLimit limit count = false ↔ ∀ bound, limit = some bound → 0 < bound → count < bound := by
  cases limit with
  | none => simp [atLimit]
  | some limit =>
      have reads : atLimit (some limit) count = false ↔ ¬ (0 < limit ∧ limit ≤ count) :=
        decide_eq_false_iff_not
      rw [reads]
      constructor
      · rintro opened bound ⟨⟩ positive
        exact Nat.lt_of_not_le fun reached => opened ⟨positive, reached⟩
      · rintro below ⟨positive, reached⟩
        exact absurd (below limit rfl positive) (Nat.not_lt.mpr reached)

theorem countInBundle_append (chosen : List Chosen) (entry : Chosen) (routeId : String) :
    countInBundle (chosen ++ [entry]) routeId =
      countInBundle chosen routeId + if entry.route.routeId = routeId then 1 else 0 := by
  unfold countInBundle
  rw [List.filter_append, List.length_append]
  split <;> simp_all

theorem countOfProvider_append (chosen : List Chosen) (entry : Chosen) (provider : String) :
    countOfProvider (chosen ++ [entry]) provider =
      countOfProvider chosen provider + if entry.route.catalog.provider = provider then 1 else 0 := by
  unfold countOfProvider
  rw [List.filter_append, List.length_append]
  split <;> simp_all

variable {chosen : List Chosen}

theorem countInBundle_eq_zero {routeId : String}
    (unseen : routeId ∉ seenRoutes chosen) : countInBundle chosen routeId = 0 := by
  refine List.length_eq_zero_iff.mpr (List.filter_eq_nil_iff.mpr fun entry member => ?_)
  intro same
  exact unseen (List.mem_dedup.mpr (List.mem_map.mpr ⟨entry, member, of_decide_eq_true same⟩))

theorem length_seenRoutes_known {entry : Chosen} (known : entry.route.routeId ∈ seenRoutes chosen) :
    (seenRoutes (chosen ++ [entry])).length ≤ (seenRoutes chosen).length := by
  refine (List.subperm_of_subset (List.nodup_dedup _) fun routeId member => ?_).length_le
  rcases mem_seenRoutes_append.mp member with old | rfl
  · exact old
  · exact known

theorem length_seenRoutes_append_le (chosen : List Chosen) (entry : Chosen) :
    (seenRoutes (chosen ++ [entry])).length ≤ (seenRoutes chosen).length + 1 := by
  have inside : seenRoutes (chosen ++ [entry]) ⊆ entry.route.routeId :: seenRoutes chosen := by
    intro routeId member
    exact List.mem_cons.mpr (mem_seenRoutes_append.mp member).symm
  exact (List.subperm_of_subset (List.nodup_dedup _) inside).length_le

section

variable {calendar : Calendar} {limits : ClaimLimits} {catalog : ClaimCatalog} {call : ClaimCall}
  {state : Coordinator} {fixed : FixedCatalog} {bundleJobLimit : Nat}

/-! ## What is chosen -/

/-- The leases of a state and what is chosen so far are together within the limits. -/
structure WithinLimits (limits : ClaimLimits) (fixed : FixedCatalog) (catalog : ClaimCatalog)
    (state : Coordinator) (bundleJobLimit : Nat) (chosen : List Chosen) : Prop where
  bundle : chosen.length ≤ bundleJobLimit
  lanes : (seenRoutes chosen).length ≤ limits.maxConcurrentRouteLanes
  laneJobs : ∀ routeId, countInBundle chosen routeId ≤ limits.maxJobsPerRoutePerBundle
  route : ∀ routeId limit, fixed.RouteLimit routeId limit →
    state.tables.leaseCountOn routeId + countInBundle chosen routeId ≤ limit
  provider : ∀ provider limit, fixed.ProviderLimit provider limit →
    inFlightOfProvider catalog state provider + countOfProvider chosen provider ≤ limit
  served : ∀ entry ∈ chosen, ∀ provider, fixed.onProvider provider entry.route.routeId =
    decide (entry.route.catalog.provider = provider)

structure Chosen.Open (fixed : FixedCatalog) (catalog : ClaimCatalog) (state : Coordinator)
    (chosen : List Chosen) (entry : Chosen) : Prop where
  route : ∀ limit, fixed.RouteLimit entry.route.routeId limit →
    state.tables.leaseCountOn entry.route.routeId +
      countInBundle chosen entry.route.routeId < limit
  provider : ∀ limit, fixed.ProviderLimit entry.route.catalog.provider limit →
    inFlightOfProvider catalog state entry.route.catalog.provider +
      countOfProvider chosen entry.route.catalog.provider < limit
  served : ∀ provider, fixed.onProvider provider entry.route.routeId =
    decide (entry.route.catalog.provider = provider)

namespace WithinLimits

variable {chosen : List Chosen} {entry : Chosen}

theorem append (within : WithinLimits limits fixed catalog state bundleJobLimit chosen)
    (room : chosen.length < bundleJobLimit) (lane : entry.route.routeId ∉ seenRoutes chosen →
      (seenRoutes chosen).length < limits.maxConcurrentRouteLanes)
    (laneJobs : countInBundle chosen entry.route.routeId < limits.maxJobsPerRoutePerBundle)
    (opened : entry.Open fixed catalog state chosen) :
    WithinLimits limits fixed catalog state bundleJobLimit (chosen ++ [entry]) where
  bundle := by
    rw [List.length_append]
    exact room
  lanes := by
    by_cases known : entry.route.routeId ∈ seenRoutes chosen
    · exact (length_seenRoutes_known known).trans within.lanes
    · exact (length_seenRoutes_append_le chosen entry).trans (lane known)
  laneJobs := by
    intro routeId
    rw [countInBundle_append]
    split
    · next same =>
      rw [← same]
      exact laneJobs
    · exact within.laneJobs routeId
  route := by
    intro routeId limit limited
    rw [countInBundle_append]
    split
    · next same =>
      subst same
      exact opened.route limit limited
    · exact within.route routeId limit limited
  provider := by
    intro provider limit limited
    rw [countOfProvider_append]
    split
    · next same =>
      subst same
      exact opened.provider limit limited
    · exact within.provider provider limit limited
  served := by
    intro other member
    rcases List.mem_append.mp member with old | new
    · exact within.served other old
    · rw [List.mem_singleton.mp new]
      exact opened.served

/-- Before anything is chosen, only what is leased counts. -/
theorem empty (route : ∀ routeId limit, fixed.RouteLimit routeId limit →
      state.tables.leaseCountOn routeId ≤ limit)
    (provider : ∀ provider limit, fixed.ProviderLimit provider limit →
      inFlightOfProvider catalog state provider ≤ limit) :
    WithinLimits limits fixed catalog state bundleJobLimit [] :=
  ⟨Nat.zero_le _, Nat.zero_le _, fun _ => Nat.zero_le _, route, provider,
    fun _ absent => absurd absent List.not_mem_nil⟩

end WithinLimits

variable {ledgers : Dict String RouteLedger} {job : JobRow} {route : ClaimRoute}

theorem ClaimCatalog.Serves.providerConcurrency (serves : catalog.Serves fixed)
    (eligible : route ∈ catalog.routesEligibleFor ledgers job) {limit : Nat}
    (limited : fixed.ProviderLimit route.catalog.provider limit) :
    providerConcurrency catalog route = some limit := by
  obtain ⟨stored, found, same⟩ := serves.eligible ledgers job route eligible
  have provider : stored.catalog.provider = route.catalog.provider := by rw [same]
  have shared : stored.providerConcurrency = route.providerConcurrency := by rw [same]
  unfold Dispatch.providerConcurrency
  rw [serves.providers, ← shared]
  exact limited.2.2 route.routeId stored found provider

theorem ClaimCatalog.Serves.onProvider (serves : catalog.Serves fixed)
    (eligible : route ∈ catalog.routesEligibleFor ledgers job) (provider : String) :
    fixed.onProvider provider route.routeId = decide (route.catalog.provider = provider) := by
  obtain ⟨stored, found, same⟩ := serves.eligible ledgers job route eligible
  have own : stored.catalog.provider = route.catalog.provider := by rw [same]
  unfold FixedCatalog.onProvider
  rw [found, ← own]

variable {entry : Chosen}

theorem ClaimCatalog.Serves.opens (serves : catalog.Serves fixed)
    (eligible : entry.route ∈ catalog.routesEligibleFor ledgers job)
    (admitted : closedBy limits catalog state chosen entry.route = none) :
    entry.Open fixed catalog state chosen := by
  obtain ⟨_, _, _, concurrency, shared⟩ := closedBy_eq_none_iff.mp admitted
  refine ⟨fun limit limited => ?_, fun limit limited => ?_, serves.onProvider eligible⟩
  · obtain ⟨positive, stored, found, bound⟩ := limited
    obtain ⟨other, known, same⟩ := serves.eligible ledgers job entry.route eligible
    rw [found, Option.some.injEq] at known
    subst known
    have own : entry.route.concurrency = some limit := by
      rw [same]
      exact bound
    exact atLimit_eq_false_iff.mp concurrency limit own positive
  · exact atLimit_eq_false_iff.mp shared limit (serves.providerConcurrency eligible limited)
      limited.2.1

/-! ## A selection -/

/-- What is kept aside could have been chosen alone. -/
structure Chosen.Drainable (limits : ClaimLimits) (fixed : FixedCatalog) (catalog : ClaimCatalog)
    (state : Coordinator) (entry : Chosen) : Prop where
  eligible : entry.route ∈ catalog.routesEligibleFor state.routes entry.job
  laneJobs : 0 < limits.maxJobsPerRoutePerBundle
  route : ∀ limit, fixed.RouteLimit entry.route.routeId limit →
    state.tables.leaseCountOn entry.route.routeId < limit

structure Selection.Within (limits : ClaimLimits) (fixed : FixedCatalog) (catalog : ClaimCatalog)
    (state : Coordinator) (bundleJobLimit : Nat) (selection : Selection) : Prop where
  chosen : WithinLimits limits fixed catalog state bundleJobLimit selection.chosen
  drains : ∀ entry ∈ selection.drains, entry.Drainable limits fixed catalog state

namespace Selection.Within

variable {selection : Selection} {job : JobRow} {route : ClaimRoute} {routes : List ClaimRoute}

theorem choose (within : selection.Within limits fixed catalog state bundleJobLimit)
    (serves : catalog.Serves fixed) (room : selection.chosen.length < bundleJobLimit)
    (eligible : route ∈ catalog.routesEligibleFor state.routes job)
    (admitted : closedBy limits catalog state selection.chosen route = none) :
    (selection.choose job route).Within limits fixed catalog state bundleJobLimit where
  chosen := by
    obtain ⟨_, lane, laneJobs, _, _⟩ := closedBy_eq_none_iff.mp admitted
    have opened : Chosen.Open fixed catalog state selection.chosen ⟨job, route, false⟩ :=
      serves.opens eligible admitted
    exact within.chosen.append room lane laneJobs opened
  drains := within.drains

theorem keepAside (within : selection.Within limits fixed catalog state bundleJobLimit)
    (serves : catalog.Serves fixed) (eligible : route ∈ catalog.routesEligibleFor state.routes job)
    (admitted : closedBy limits catalog state selection.chosen route = none) :
    (selection.keepAside job route).Within limits fixed catalog state bundleJobLimit := by
  unfold Selection.keepAside
  split
  · exact within
  refine ⟨within.chosen, fun entry member => ?_⟩
  rcases List.mem_append.mp member with old | new
  · exact within.drains entry old
  · rw [List.mem_singleton.mp new]
    have opened : Chosen.Open fixed catalog state selection.chosen ⟨job, route, true⟩ :=
      serves.opens eligible admitted
    obtain ⟨_, _, laneJobs, _, _⟩ := closedBy_eq_none_iff.mp admitted
    exact ⟨eligible, (Nat.zero_le _).trans_lt laneJobs, fun limit limited =>
      (Nat.le_add_right _ _).trans_lt (opened.route limit limited)⟩

theorem offerRoutes (within : selection.Within limits fixed catalog state bundleJobLimit)
    (serves : catalog.Serves fixed) (room : selection.chosen.length < bundleJobLimit)
    (eligible : ∀ route ∈ routes, route ∈ catalog.routesEligibleFor state.routes job) :
    (offerRoutes calendar limits catalog call state job routes selection).Within limits fixed
      catalog state bundleJobLimit := by
  induction routes generalizing selection with
  | nil => exact within
  | cons route later induction =>
      have here := eligible route List.mem_cons_self
      have rest := fun other member => eligible other (List.mem_cons_of_mem _ member)
      have refuse (gate : Gate) :
          (selection.refuse gate).Within limits fixed catalog state bundleJobLimit :=
        ⟨within.chosen, within.drains⟩
      unfold Dispatch.offerRoutes
      split
      · exact induction (refuse _) room rest
      · next admitted =>
        split
        · exact within.choose serves room here admitted
        · split
          · refine induction ((refuse .routeCapacity).keepAside serves here admitted) ?_ rest
            rw [keepAside_chosen]
            exact room
          · exact induction (refuse .routeCapacity) room rest

theorem offerJob (within : selection.Within limits fixed catalog state bundleJobLimit)
    (serves : catalog.Serves fixed) (room : selection.chosen.length < bundleJobLimit) :
    (offerJob calendar limits catalog call state selection job).Within limits fixed catalog state
      bundleJobLimit := by
  unfold Dispatch.offerJob
  split
  · exact within
  have counted : Selection.Within limits fixed catalog state bundleJobLimit
      { selection with candidateJobs := selection.candidateJobs + 1 } :=
    ⟨within.chosen, within.drains⟩
  have ordered : ∀ route ∈ routeOrder catalog state job selection,
      route ∈ catalog.routesEligibleFor state.routes job :=
    fun route member => mem_routeOrder.mp member
  have tried : Selection.Within limits fixed catalog state bundleJobLimit
      (Dispatch.offerRoutes calendar limits catalog call state job
        (routeOrder catalog state job selection)
        { selection with candidateJobs := selection.candidateJobs + 1 }) :=
    counted.offerRoutes serves room ordered
  unfold judgeSize
  split
  · exact ⟨tried.chosen, tried.drains⟩
  · exact tried

theorem offerJobs {start : Nat} {candidates : List Candidate}
    (within : selection.Within limits fixed catalog state bundleJobLimit)
    (serves : catalog.Serves fixed) :
    (offerJobs calendar limits catalog call state bundleJobLimit start selection candidates).Within
      limits fixed catalog state bundleJobLimit := by
  unfold Dispatch.offerJobs
  refine List.foldlRecOn candidates _ within fun selection within candidate _ => ?_
  split
  · exact within
  · next spare =>
    refine within.offerJob serves (Nat.lt_of_not_le fun full => spare ?_)
    exact decide_eq_true (.inl full)

theorem offerModel (within : selection.Within limits fixed catalog state bundleJobLimit)
    (serves : catalog.Serves fixed) (plan : ModelPlan) :
    (offerModel calendar limits catalog call state bundleJobLimit selection plan).Within limits
      fixed catalog state bundleJobLimit := by
  unfold Dispatch.offerModel
  split
  · exact within
  dsimp only
  split
  · exact within.offerJobs serves
  · exact (within.offerJobs serves).offerJobs serves

end Selection.Within

theorem selectJobs_within (serves : catalog.Serves fixed)
    (empty : WithinLimits limits fixed catalog state bundleJobLimit []) :
    (selectJobs calendar limits catalog call state bundleJobLimit).Within limits fixed catalog state
      bundleJobLimit := by
  have start : Selection.Within limits fixed catalog state bundleJobLimit {} :=
    ⟨empty, fun _ absent => absurd absent List.not_mem_nil⟩
  unfold selectJobs
  exact List.foldlRecOn _ _ start fun selection within plan _ => within.offerModel serves plan

/-! ## The drain pass -/

theorem drainJob_within (serves : catalog.Serves fixed)
    (within : WithinLimits limits fixed catalog state bundleJobLimit chosen)
    (drainable : entry.Drainable limits fixed catalog state) :
    WithinLimits limits fixed catalog state bundleJobLimit
      (drainJob limits catalog state bundleJobLimit chosen entry) := by
  unfold drainJob
  split
  · exact within
  next spare =>
  obtain ⟨room, unseen, lane, shared⟩ : ¬ bundleJobLimit ≤ chosen.length ∧
      entry.route.routeId ∉ seenRoutes chosen ∧
        ¬ limits.maxConcurrentRouteLanes ≤ (seenRoutes chosen).length ∧
          ¬ atLimit (providerConcurrency catalog entry.route)
            (inFlightOfProvider catalog state entry.route.catalog.provider +
              countOfProvider chosen entry.route.catalog.provider) = true := by
    simpa only [not_or] using spare
  have unused := countInBundle_eq_zero unseen
  refine within.append (Nat.lt_of_not_le room) (fun _ => Nat.lt_of_not_le lane) ?_
    ⟨?_, ?_, serves.onProvider drainable.eligible⟩
  · rw [unused]
    exact drainable.laneJobs
  · intro limit limited
    rw [unused]
    exact drainable.route limit limited
  · intro limit limited
    exact atLimit_eq_false_iff.mp (Bool.eq_false_of_not_eq_true shared) limit
      (serves.providerConcurrency drainable.eligible limited) limited.2.1

/-- What a claim goes on to lease is within the limits. -/
theorem drainPass_within {selection : Selection} (serves : catalog.Serves fixed)
    (empty : WithinLimits limits fixed catalog state bundleJobLimit [])
    (within : selection.Within limits fixed catalog state bundleJobLimit) :
    WithinLimits limits fixed catalog state bundleJobLimit
      (drainPass limits catalog state bundleJobLimit selection) := by
  unfold drainPass
  split
  · exact List.foldlRecOn _ _ empty fun chosen drained entry member =>
      drainJob_within serves drained (within.drains entry member)
  · exact within.chosen

end

end CityPods.Dispatch
