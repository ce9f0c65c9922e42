import CityPods.Dispatch.Operations
import CityPods.Dispatch.Reserves

/-! # Coherence of the queue index

In every state that operations reach, the queue index, the count of the queued
jobs, the bundles and the lease registry are what the job rows call for.
-/

namespace CityPods.Dispatch

open Foundation

def QueueIndex.Names (jobId : String) : QueueIndex → Prop
  | .legacy rows => ∃ row ∈ rows, row.jobId = jobId
  | .compact rows _ => ∃ row ∈ rows, row.jobId = jobId

/-- The index, the counter, the bundles and the registry agree with the job rows. -/
structure Coordinator.Agrees (state : Coordinator) : Prop where
  names : ∀ jobId, state.tables.queue.Names jobId ↔
    ∃ job, state.tables.jobs.get? jobId = some job ∧ job.state = .queued
  legacy : ∀ rows, state.tables.queue = .legacy rows → ∀ row, row ∈ rows ↔
    ∃ job models, state.tables.jobs.get? row.jobId = some job ∧ job.state = .queued ∧
      job.queueModels = some models ∧ row.model ∈ models ∧ row.priority = job.priority ∧
        row.createdAt = job.createdAt
  compact : ∀ rows groups, state.tables.queue = .compact rows groups →
    (∀ row, row ∈ rows ↔ ∃ job, state.tables.jobs.get? row.jobId = some job ∧
      job.state = .queued ∧ job.queueModels = some row.modelSet ∧
        row.priority = job.priority ∧ row.createdAt = job.createdAt) ∧
    ∀ row ∈ rows, ∀ model ∈ row.modelSet, ⟨model, row.modelSet⟩ ∈ groups
  counted : state.scheduler.queuedJobCount =
    (state.tables.jobs.values.filter fun job => decide (job.state = .queued)).length
  bundled : ∀ jobId job, state.tables.jobs.get? jobId = some job → job.state = .leased →
    ∃ bundleId, job.bundleId = some bundleId ∧ (state.bundles.get? bundleId).isSome
  registered : ∀ leases, state.tables.leases = some leases → leases.keys.Nodup ∧
    ∀ jobId entry, (jobId, entry) ∈ leases ↔ ∃ job, state.tables.jobs.get? jobId = some job ∧
      job.state = .leased ∧ job.bundleId = some entry.bundleId ∧
        job.leaseRouteId = some entry.leaseRouteId ∧
          job.leaseExpiresAt = some entry.leaseExpiresAt

variable {job : JobRow} {key : QueueKey}

theorem JobRow.mem_listedKey :
    job.listedKey = some key ↔ job.state = .queued ∧ job.queueModels = some key.models ∧
      key.priority = job.priority ∧ key.createdAt = job.createdAt := by
  obtain ⟨models, priority, createdAt⟩ := key
  unfold JobRow.listedKey JobRow.queueKey
  by_cases queued : job.state = .queued
  · cases recorded : job.queueModels <;> simp [queued, eq_comm]
  · simp [queued]

theorem QueueKey.mem_modelRows {jobId : String} {row : ModelRow} :
    row ∈ key.modelRows jobId ↔ row.jobId = jobId ∧ row.model ∈ key.models ∧
      row.priority = key.priority ∧ row.createdAt = key.createdAt := by
  obtain ⟨rowId, model, priority, createdAt⟩ := row
  simp only [QueueKey.modelRows, List.mem_map, ModelRow.mk.injEq]
  constructor
  · rintro ⟨_, member, rfl, rfl, rfl, rfl⟩
    exact ⟨rfl, member, rfl, rfl⟩
  · rintro ⟨rfl, member, rfl, rfl⟩
    exact ⟨model, member, rfl, rfl, rfl, rfl⟩

namespace JobTables.Coherent

variable {tables : JobTables}

theorem legacy_rows (coherent : tables.Coherent) {rows : List ModelRow}
    (queue : tables.queue = .legacy rows) (row : ModelRow) :
    row ∈ rows ↔ ∃ job models, tables.jobs.get? row.jobId = some job ∧ job.state = .queued ∧
      job.queueModels = some models ∧ row.model ∈ models ∧ row.priority = job.priority ∧
        row.createdAt = job.createdAt := by
  have listed := coherent.listed row.jobId
  rw [queue] at listed
  rw [listed row rfl]
  constructor
  · intro member
    cases found : tables.jobs.get? row.jobId with
    | none =>
        rw [found] at member
        cases member
    | some job =>
        rw [found, Option.bind_some] at member
        cases key : job.listedKey with
        | none =>
            rw [key] at member
            cases member
        | some key' =>
            rw [key, Option.map_some, Option.getD_some] at member
            obtain ⟨_, model, priority, createdAt⟩ := QueueKey.mem_modelRows.mp member
            obtain ⟨state, recorded, samePriority, sameTime⟩ := JobRow.mem_listedKey.mp key
            exact ⟨job, key'.models, rfl, state, recorded, model, priority.trans samePriority,
              createdAt.trans sameTime⟩
  · rintro ⟨job, models, found, state, recorded, model, priority, createdAt⟩
    have key : job.listedKey = some ⟨models, job.priority, job.createdAt⟩ :=
      JobRow.mem_listedKey.mpr ⟨state, recorded, rfl, rfl⟩
    rw [found, Option.bind_some, key, Option.map_some, Option.getD_some]
    exact QueueKey.mem_modelRows.mpr ⟨rfl, model, priority, createdAt⟩

variable {rows : List QueueRow} {groups : List GroupRow}

theorem compact_rows (coherent : tables.Coherent)
    (queue : tables.queue = .compact rows groups) (row : QueueRow) :
    row ∈ rows ↔ ∃ job, tables.jobs.get? row.jobId = some job ∧ job.state = .queued ∧
      job.queueModels = some row.modelSet ∧ row.priority = job.priority ∧
        row.createdAt = job.createdAt := by
  have listed := coherent.listed row.jobId
  rw [queue] at listed
  rw [listed.1 row rfl]
  constructor
  · intro member
    cases found : tables.jobs.get? row.jobId with
    | none =>
        rw [found] at member
        cases member
    | some job =>
        rw [found, Option.bind_some] at member
        cases key : job.listedKey with
        | none =>
            rw [key] at member
            cases member
        | some key' =>
            rw [key, Option.map_some, Option.getD_some, List.mem_singleton] at member
            obtain ⟨state, recorded, samePriority, sameTime⟩ := JobRow.mem_listedKey.mp key
            rw [member]
            exact ⟨job, rfl, state, recorded, samePriority, sameTime⟩
  · rintro ⟨job, found, state, recorded, priority, createdAt⟩
    have key : job.listedKey = some ⟨row.modelSet, job.priority, job.createdAt⟩ :=
      JobRow.mem_listedKey.mpr ⟨state, recorded, rfl, rfl⟩
    rw [found, Option.bind_some, key, Option.map_some, Option.getD_some, List.mem_singleton,
      QueueKey.queueRow, ← priority, ← createdAt]

theorem compact_groups (coherent : tables.Coherent)
    (queue : tables.queue = .compact rows groups) {row : QueueRow} (member : row ∈ rows)
    {model : String} (listedModel : model ∈ row.modelSet) : ⟨model, row.modelSet⟩ ∈ groups := by
  obtain ⟨job, found, state, recorded, _⟩ := (coherent.compact_rows queue row).mp member
  have listed := coherent.listed row.jobId
  have key : job.listedKey = some ⟨row.modelSet, job.priority, job.createdAt⟩ :=
    JobRow.mem_listedKey.mpr ⟨state, recorded, rfl, rfl⟩
  rw [queue, found, Option.bind_some, key] at listed
  exact listed.2 _ rfl _ (List.mem_map_of_mem listedModel)

end JobTables.Coherent

/-- How many rows are queued, counted as the coordinator counts them. -/
theorem JobTables.queuedJobs_eq (tables : JobTables) :
    tables.queuedJobs =
      (tables.jobs.values.filter fun job => decide (job.state = .queued)).length := by
  unfold JobTables.queuedJobs
  induction tables.jobs with
  | nil => rfl
  | cons entry rest induction =>
      rw [Dict.total_cons, induction]
      by_cases queued : entry.2.state = .queued
      · simp [Dict.values, queuedUnit_of_eq queued, queued, add_comm]
      · simp [Dict.values, queuedUnit_of_ne queued, queued]

theorem JobRow.leaseEntry_of_columns {entry : LeaseEntry}
    (leased : job.state = .leased) (bundle : job.bundleId = some entry.bundleId)
    (route : job.leaseRouteId = some entry.leaseRouteId)
    (expiry : job.leaseExpiresAt = some entry.leaseExpiresAt) : job.leaseEntry = some entry := by
  simp only [JobRow.leaseEntry, leased, bundle, route, expiry, if_true]

theorem Coordinator.Sound.agrees {state : Coordinator} (sound : state.Sound) : state.Agrees where
  names := by
    have coherent := sound.coherent
    intro jobId
    have queued (job : JobRow) (found : state.tables.jobs.get? jobId = some job)
        (waits : job.state = .queued) : ∃ model models, job.queueModels = some (model :: models) := by
      obtain ⟨models, recorded, nonempty⟩ := coherent.recorded jobId job found waits
      obtain ⟨model, rest, rfl⟩ := List.exists_cons_of_ne_nil nonempty
      exact ⟨model, rest, recorded⟩
    cases queue : state.tables.queue with
    | legacy rows =>
        constructor
        · rintro ⟨row, member, rfl⟩
          obtain ⟨job, _, found, waits, _⟩ := (coherent.legacy_rows queue row).mp member
          exact ⟨job, found, waits⟩
        · rintro ⟨job, found, waits⟩
          obtain ⟨model, models, recorded⟩ := queued job found waits
          exact ⟨⟨jobId, model, job.priority, job.createdAt⟩,
            (coherent.legacy_rows queue _).mpr
              ⟨job, _, found, waits, recorded, List.mem_cons_self, rfl, rfl⟩, rfl⟩
    | compact rows groups =>
        constructor
        · rintro ⟨row, member, rfl⟩
          obtain ⟨job, found, waits, _⟩ := (coherent.compact_rows queue row).mp member
          exact ⟨job, found, waits⟩
        · rintro ⟨job, found, waits⟩
          obtain ⟨model, models, recorded⟩ := queued job found waits
          exact ⟨⟨model :: models, job.priority, job.createdAt, jobId⟩,
            (coherent.compact_rows queue _).mpr ⟨job, found, waits, recorded, rfl, rfl⟩, rfl⟩
  legacy := fun _ queue row => sound.coherent.legacy_rows queue row
  compact := fun _ _ queue => ⟨fun row => sound.coherent.compact_rows queue row,
    fun _ member _ listed => sound.coherent.compact_groups queue member listed⟩
  counted := sound.counted.exact.trans state.tables.queuedJobs_eq
  bundled := by
    intro jobId job found leased
    obtain ⟨entry, bundle, registered, active, _⟩ := sound.bundled.leased jobId job found leased
    refine ⟨entry.bundleId, (JobRow.leased_of_leaseEntry registered).2.1, ?_⟩
    rw [active]
    rfl
  registered := by
    intro leases packed
    refine ⟨sound.coherent.keyed leases packed, fun jobId entry => ?_⟩
    constructor
    · intro member
      obtain ⟨job, found, registered⟩ := sound.coherent.leased_of_mem packed member
      exact ⟨job, found, JobRow.leased_of_leaseEntry registered⟩
    · rintro ⟨job, found, leased, bundle, route, expiry⟩
      have held := sound.coherent.registered jobId leases packed
      rw [found, Option.bind_some, JobRow.leaseEntry_of_columns leased bundle route expiry] at held
      exact Dict.get?_eq_some_mem held

/-- Whatever operations ran, in whatever order, the index agrees with the jobs. -/
theorem queue_index_coherent (start state : Coordinator) (unused : start.Unused)
    (reached : start.Reaches state) : state.Agrees :=
  (reached.sound (.of_unused unused)).agrees

/-! ### A morning in the compact format -/

def compactMorning : Option Coordinator :=
  Operation.run (.fresh (.compact [] []) (some []) 0)
    (.enqueueBatch twoLanes oneModelCatalog 1000 smallRows taggerBatch)

theorem compactMorning_isSome : compactMorning.isSome = true := by decide +kernel

theorem queue_index_coherent_morning : (compactMorning.get compactMorning_isSome).Agrees :=
  queue_index_coherent _ _ (.compact [] (some []) (.inr rfl) 0)
    (.step .refl (.enqueueBatch twoLanes oneModelCatalog 1000 smallRows taggerBatch) trivial
      (Option.some_get compactMorning_isSome).symm)

end CityPods.Dispatch
