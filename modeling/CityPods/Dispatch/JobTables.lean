import CityPods.Dispatch.Queue

/-! # Job tables

The three places in which the coordinator keeps a job: its row, its entries in
the queue index and, in packed mode, its entry in the lease registry. Every
transition writes one row and brings the other two into line with it.
-/

namespace CityPods.Dispatch

open Foundation

/-! ## The lease registry -/

/-- What the registry keeps of a leased job. -/
structure LeaseEntry where
  bundleId : String
  leaseRouteId : String
  leaseExpiresAt : ℚ
  deriving DecidableEq

/-- The registry of leased jobs; there is none outside packed mode. -/
abbrev LeaseRegistry := Option (Dict String LeaseEntry)

def packedLeasesMaxEntries : Nat := 1024

/-- A full registry refuses a new lease, and with it the transaction. -/
def LeaseRegistry.leaseSet (jobId : String) (entry : LeaseEntry) :
    LeaseRegistry → Option LeaseRegistry
  | none => some none
  | some leases =>
      if (leases.get? jobId).isNone ∧ packedLeasesMaxEntries ≤ leases.length then none
      else some (some (leases.set jobId entry))

def LeaseRegistry.leaseDelete (jobId : String) (registry : LeaseRegistry) : LeaseRegistry :=
  registry.map fun leases => leases.erase jobId

def JobRow.leaseEntry (job : JobRow) : Option LeaseEntry :=
  if job.state = .leased then
    match job.bundleId, job.leaseRouteId, job.leaseExpiresAt with
    | some bundleId, some leaseRouteId, some leaseExpiresAt =>
        some ⟨bundleId, leaseRouteId, leaseExpiresAt⟩
    | _, _, _ => none
  else none

def LeaseRegistry.Registers (jobId : String) (entry : Option LeaseEntry)
    (registry : LeaseRegistry) : Prop :=
  ∀ leases ∈ registry, leases.get? jobId = entry

/-- A job has one entry. -/
def LeaseRegistry.Keyed (registry : LeaseRegistry) : Prop :=
  ∀ leases ∈ registry, leases.keys.Nodup

def LeaseRegistry.Spares (jobId : String) (before after : LeaseRegistry) : Prop :=
  ∀ other entry, other ≠ jobId → Registers other entry before → Registers other entry after

theorem LeaseRegistry.Spares.refl (jobId : String) (registry : LeaseRegistry) :
    Spares jobId registry registry :=
  fun _ _ _ registers => registers

variable {registry after : LeaseRegistry} {jobId : String} {entry : LeaseEntry}

theorem LeaseRegistry.registers_leaseSet (written : registry.leaseSet jobId entry = some after) :
    after.Registers jobId (some entry) ∧ Spares jobId registry after := by
  cases registry with
  | none =>
      cases written
      exact ⟨fun leases packed => (by cases packed), Spares.refl _ _⟩
  | some leases =>
      unfold leaseSet at written
      dsimp only at written
      by_cases full : (leases.get? jobId).isNone ∧ packedLeasesMaxEntries ≤ leases.length
      · rw [if_pos full] at written
        cases written
      rw [if_neg full, Option.some.injEq] at written
      subst written
      refine ⟨?_, ?_⟩
      · rintro _ ⟨⟩
        exact Dict.get?_set_same _ _ _
      · rintro other found different registers _ ⟨⟩
        rw [Dict.get?_set_other _ _ different]
        exact registers leases rfl

theorem LeaseRegistry.registers_leaseDelete (registry : LeaseRegistry) (jobId : String) :
    (registry.leaseDelete jobId).Registers jobId none ∧
      Spares jobId registry (registry.leaseDelete jobId) := by
  cases registry with
  | none => exact ⟨fun leases packed => (by cases packed), Spares.refl _ _⟩
  | some leases =>
      refine ⟨?_, ?_⟩
      · rintro _ ⟨⟩
        exact Dict.get?_erase_same _ _
      · rintro other found different registers _ ⟨⟩
        rw [Dict.get?_erase_other _ different]
        exact registers leases rfl

theorem LeaseRegistry.keyed_leaseSet (written : registry.leaseSet jobId entry = some after)
    (keyed : registry.Keyed) : after.Keyed := by
  cases registry with
  | none =>
      cases written
      exact keyed
  | some leases =>
      unfold leaseSet at written
      dsimp only at written
      split at written
      · cases written
      · cases written
        rintro _ ⟨⟩
        exact Dict.nodup_keys_set (keyed leases rfl) jobId entry

theorem LeaseRegistry.keyed_leaseDelete (keyed : registry.Keyed)
    (jobId : String) : (registry.leaseDelete jobId).Keyed := by
  cases registry with
  | none => exact keyed
  | some leases =>
      rintro _ ⟨⟩
      exact Dict.nodup_keys_erase (keyed leases rfl) jobId

/-! ## Tables -/

structure JobTables where
  jobs : Dict String JobRow := []
  queue : QueueIndex := .legacy []
  leases : LeaseRegistry := none
  deriving DecidableEq

def JobTables.writeRow (job : JobRow) (tables : JobTables) : JobTables :=
  { tables with
    jobs := tables.jobs.set job.id job
    queue :=
      match tables.jobs.get? job.id with
      | some before => tables.queue.syncPriority job.id before job
      | none => tables.queue }

def JobTables.indexJob (job : JobRow) (models : List String) (tables : JobTables) : JobTables :=
  { tables with
    queue := tables.queue.indexQueuedJobModels job.id ⟨models, job.priority, job.createdAt⟩ }

def JobTables.unindexJob (job : JobRow) (tables : JobTables) : Option JobTables :=
  (tables.queue.unindexQueuedJob job).map fun queue => { tables with queue := queue }

def JobTables.leaseSet (jobId : String) (entry : LeaseEntry) (tables : JobTables) :
    Option JobTables :=
  (tables.leases.leaseSet jobId entry).map fun leases => { tables with leases := leases }

def JobTables.leaseDelete (jobId : String) (tables : JobTables) : JobTables :=
  { tables with leases := tables.leases.leaseDelete jobId }

/-- How many jobs are queued. -/
def queuedUnit (job : JobRow) : ℤ := if job.state = .queued then 1 else 0

def JobTables.queuedJobs (tables : JobTables) : ℤ := Dict.total queuedUnit tables.jobs

/-! ## Transitions

Each rewrites one row. `none` is a transaction that throws and rolls back. -/

/-- Remove every lease column. -/
def JobRow.released (job : JobRow) : JobRow :=
  { job with
    leaseToken := none
    leaseRouteId := none
    leaseExpiresAt := none
    bundleId := none }

/-- A row that is queued and records the models it is indexed under. -/
def JobRow.inQueue (job : JobRow) (models : List String) : JobRow :=
  { job with state := .queued, queueModels := some models }

def JobTables.insertQueued (job : JobRow) (models : List String) (tables : JobTables) :
    Option JobTables :=
  if (tables.jobs.get? job.id).isSome ∨
      (∃ entry ∈ tables.jobs, entry.2.idempotencyKey = job.idempotencyKey) ∨ 1 < job.priority then
    none
  else
    some ((tables.writeRow (job.inQueue models)).indexJob job models)

/-- Replace a row by a new submission under the same identity. -/
def JobTables.supersede (row job : JobRow) (models : List String) (tables : JobTables) :
    Option JobTables :=
  (if row.state = .queued then tables.unindexJob row else some tables).bind fun tables =>
    if 1 < job.priority then none
    else some ((tables.writeRow (job.inQueue models)).indexJob job models)

def JobTables.requeue (job : JobRow) (models : List String) (tables : JobTables) : JobTables :=
  ((tables.writeRow (job.released.inQueue models)).indexJob job models).leaseDelete job.id

def JobTables.reindex (job : JobRow) (models : List String) (tables : JobTables) :
    Option JobTables :=
  (tables.unindexJob job).map fun tables =>
    (tables.writeRow (job.inQueue models)).indexJob job models

/-- Give a queued job a state in which it is no longer queued. -/
def JobTables.withdraw (job after : JobRow) (tables : JobTables) : Option JobTables :=
  (tables.unindexJob job).map fun tables => tables.writeRow after

/-- Lease a queued job: the registry first, then the row, then the index. -/
def JobTables.lease (job leased : JobRow) (entry : LeaseEntry) (tables : JobTables) :
    Option JobTables :=
  (tables.leaseSet job.id entry).bind fun tables => (tables.writeRow leased).unindexJob job

def JobTables.settle (after : JobRow) (tables : JobTables) : JobTables :=
  (tables.writeRow after).leaseDelete after.id

def JobTables.deleteRow (jobId : String) (tables : JobTables) : JobTables :=
  { tables with jobs := tables.jobs.erase jobId }

end CityPods.Dispatch
