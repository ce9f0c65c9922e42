import CityPods.Dispatch.IndexCoherence
import CityPods.Dispatch.SelectionCaps
import Mathlib.Algebra.BigOperators.Group.List.Lemmas

/-! # Counting leases

The leases that the job rows call for, one for each leased job, and what the
coordinator's own counts of them say in either format of the registry.
-/

namespace CityPods.Dispatch

open Foundation

def JobTables.heldLeases (tables : JobTables) : List (String × LeaseEntry) :=
  tables.jobs.filterMap fun row => row.2.leaseEntry.map fun entry => (row.1, entry)

def JobTables.leasesWhere (test : LeaseEntry → Bool) (tables : JobTables) : Nat :=
  tables.heldLeases.countP fun held => test held.2

def JobTables.lanesOf (bundleId : String) (tables : JobTables) : List String :=
  ((tables.heldLeases.filter fun held => decide (held.2.bundleId = bundleId)).map fun held =>
    held.2.leaseRouteId).dedup

def JobTables.KeepsLeases (before after : JobTables) : Prop :=
  ∀ jobId, KeepsLease (before.jobs.get? jobId) (after.jobs.get? jobId)

theorem JobTables.KeepsLeases.refl (tables : JobTables) : tables.KeepsLeases tables :=
  fun _ => .refl _

theorem JobTables.KeepsLeases.trans {first second third : JobTables}
    (left : first.KeepsLeases second) (right : second.KeepsLeases third) :
    first.KeepsLeases third :=
  fun jobId => KeepsLease.trans _ _ _ (left jobId) (right jobId)

theorem Tallied.Moves.keepsLeases {allowed : Change → Prop} {before after : CountedTables}
    (moves : CountedTables.Moves allowed before after)
    (keeps : ∀ change, allowed change → KeepsLease change.before change.after) :
    before.tables.KeepsLeases after.tables :=
  fun jobId => moves.relates KeepsLease.refl KeepsLease.trans jobId
    fun change permitted _ => keeps change permitted

namespace JobTables.Coherent

variable {tables : JobTables}

theorem mem_heldLeases (coherent : tables.Coherent) {jobId : String} {entry : LeaseEntry} :
    (jobId, entry) ∈ tables.heldLeases ↔
      ∃ job, tables.jobs.get? jobId = some job ∧ job.leaseEntry = some entry := by
  unfold heldLeases
  constructor
  · intro member
    obtain ⟨row, stored, read⟩ := List.mem_filterMap.mp member
    obtain ⟨found, registered, same⟩ := Option.map_eq_some_iff.mp read
    obtain ⟨rfl, rfl⟩ := Prod.mk.inj same
    exact ⟨row.2, Dict.get?_of_mem coherent.nodup stored, registered⟩
  · rintro ⟨job, found, registered⟩
    refine List.mem_filterMap.mpr ⟨(jobId, job), Dict.get?_eq_some_mem found, ?_⟩
    rw [registered]
    rfl

theorem nodup_heldLeases (coherent : tables.Coherent) : tables.heldLeases.Nodup := by
  refine List.Nodup.of_map Prod.fst (coherent.nodup.sublist (sublist_map_filterMap ?_))
  intro row _ held read
  obtain ⟨_, _, same⟩ := Option.map_eq_some_iff.mp read
  rw [← same]

end JobTables.Coherent

variable {tables : JobTables}

theorem JobTables.Coherent.leasesWhere_le (coherent : tables.Coherent)
    {leases : List (String × LeaseEntry)} {test : LeaseEntry → Bool}
    (within : ∀ held ∈ tables.heldLeases, test held.2 = true → held ∈ leases) :
    tables.leasesWhere test ≤ leases.countP fun held => test held.2 := by
  unfold leasesWhere
  rw [List.countP_eq_length_filter, List.countP_eq_length_filter]
  refine (List.subperm_of_subset (coherent.nodup_heldLeases.filter _) fun held member => ?_).length_le
  obtain ⟨listed, passes⟩ := List.mem_filter.mp member
  exact List.mem_filter.mpr ⟨within held listed passes, passes⟩

theorem JobTables.KeepsLeases.subset {before after : JobTables} (keeps : before.KeepsLeases after)
    (coherent : before.Coherent) (later : after.Coherent) :
    after.heldLeases ⊆ before.heldLeases := by
  rintro ⟨jobId, entry⟩ member
  obtain ⟨job, found, registered⟩ := later.mem_heldLeases.mp member
  obtain ⟨old, before, _, same⟩ := keeps jobId job found (JobRow.leased_of_leaseEntry registered).1
  exact coherent.mem_heldLeases.mpr ⟨old, before, same.trans registered⟩

theorem length_lanesOf_le {bundleId : String} {routes : List String}
    (within : ∀ held ∈ tables.heldLeases, held.2.bundleId = bundleId →
      held.2.leaseRouteId ∈ routes) : (tables.lanesOf bundleId).length ≤ routes.length := by
  refine (List.subperm_of_subset (List.nodup_dedup _) fun routeId member => ?_).length_le
  obtain ⟨held, listed, rfl⟩ := List.mem_map.mp (List.mem_dedup.mp member)
  obtain ⟨inside, own⟩ := List.mem_filter.mp listed
  exact within held inside (of_decide_eq_true own)

theorem mem_lanesOf {held : String × LeaseEntry} (member : held ∈ tables.heldLeases) :
    held.2.leaseRouteId ∈ tables.lanesOf held.2.bundleId :=
  List.mem_dedup.mpr (List.mem_map_of_mem (List.mem_filter.mpr ⟨member, decide_eq_true rfl⟩))

/-- The routes of the leases, once for each lease, as the coordinator reads them. -/
def JobTables.leaseRoutes (tables : JobTables) : List String :=
  match tables.leases with
  | some leases => leases.values.map LeaseEntry.leaseRouteId
  | none =>
      (tables.jobs.values.filter fun job => decide (job.state = .leased)).filterMap
        JobRow.leaseRouteId

theorem leasedRoutes_eq (tables : JobTables) : tables.leasedRoutes = tables.leaseRoutes.dedup := by
  unfold JobTables.leasedRoutes JobTables.leaseRoutes
  cases tables.leases <;> rfl

theorem leaseCountOn_eq_count (routeId : String) (tables : JobTables) :
    tables.leaseCountOn routeId = tables.leaseRoutes.count routeId := by
  unfold JobTables.leaseCountOn JobTables.leaseRoutes
  cases tables.leases with
  | some leases =>
      dsimp only
      rw [List.count, List.countP_map, List.countP_eq_length_filter]
      exact congrArg List.length (List.filter_congr fun entry _ => rfl)
  | none =>
      dsimp only
      rw [List.count, List.countP_filterMap, List.countP_filter, List.countP_eq_length_filter]
      refine congrArg List.length (List.filter_congr fun job _ => ?_)
      cases route : job.leaseRouteId with
      | none => simp
      | some own => by_cases same : own = routeId <;> simp [same, and_comm]

variable {state : Coordinator}

theorem Coordinator.Bundled.leaseRoutes_perm (bundled : state.Bundled)
    (coherent : state.tables.Coherent) :
    (state.tables.heldLeases.map fun held => held.2.leaseRouteId).Perm state.tables.leaseRoutes := by
  unfold JobTables.leaseRoutes
  cases packed : state.tables.leases with
  | some leases =>
      have same : state.tables.heldLeases.Perm leases := by
        refine (List.perm_ext_iff_of_nodup coherent.nodup_heldLeases
          (List.Nodup.of_map Prod.fst (coherent.keyed leases packed))).mpr ?_
        rintro ⟨jobId, entry⟩
        rw [coherent.mem_heldLeases]
        have registered := coherent.registered jobId leases packed
        constructor
        · rintro ⟨job, found, held⟩
          rw [found, Option.bind_some, held] at registered
          exact Dict.get?_eq_some_mem registered
        · intro member
          exact coherent.leased_of_mem packed member
      unfold Dict.values
      dsimp only
      rw [List.map_map]
      exact same.map _
  | none =>
      have agrees (row : String × JobRow) (member : row ∈ state.tables.jobs) :
          (row.2.leaseEntry.map fun entry => (row.1, entry)).map (fun held =>
              held.2.leaseRouteId) =
            if row.2.state = .leased then row.2.leaseRouteId else none := by
        have found := Dict.get?_of_mem coherent.nodup member
        split
        · next leased =>
          obtain ⟨entry, _, registered, _⟩ := bundled.leased row.1 row.2 found leased
          rw [registered, (JobRow.leased_of_leaseEntry registered).2.2.1]
          rfl
        · next idle =>
          rw [JobRow.leaseEntry_of_ne idle]
          rfl
      unfold JobTables.heldLeases Dict.values
      dsimp only
      rw [List.map_filterMap, List.filter_map, List.filterMap_map, List.filterMap_filter]
      refine List.Perm.of_eq (List.filterMap_congr fun row member => ?_)
      rw [agrees row member]
      simp

theorem Coordinator.Bundled.leaseCountOn_eq (bundled : state.Bundled)
    (coherent : state.tables.Coherent) (routeId : String) :
    state.tables.leaseCountOn routeId =
      state.tables.leasesWhere fun entry => decide (entry.leaseRouteId = routeId) := by
  rw [leaseCountOn_eq_count, ← (bundled.leaseRoutes_perm coherent).count_eq, List.count,
    List.countP_map]
  rfl

theorem Coordinator.Bundled.inFlightOfProvider_eq {catalog : ClaimCatalog}
    {fixed : FixedCatalog} (bundled : state.Bundled) (coherent : state.tables.Coherent)
    (serves : catalog.Serves fixed) {provider : String} (named : provider ≠ "") :
    inFlightOfProvider catalog state provider =
      state.tables.leasesWhere fun entry => fixed.onProvider provider entry.leaseRouteId := by
  have summed : inFlightOfProvider catalog state provider =
      (state.tables.leasedRoutes.map fun routeId =>
        if fixed.onProvider provider routeId then state.tables.leaseRoutes.count routeId
        else 0).sum := by
    refine congrArg List.sum (List.map_congr_left fun routeId _ => ?_)
    unfold FixedCatalog.onProvider
    rw [serves.routesById, leaseCountOn_eq_count]
    cases fixed.routesById routeId with
    | none => rfl
    | some route => simp [named]
  rw [summed, leasedRoutes_eq, List.sum_map_ite]
  simp only [List.map_const', List.sum_replicate, nsmul_zero, add_zero, Bool.decide_eq_true]
  rw [List.sum_map_count_dedup_filter_eq_countP, ← (bundled.leaseRoutes_perm coherent).countP_eq,
    List.countP_map]
  rfl

end CityPods.Dispatch
