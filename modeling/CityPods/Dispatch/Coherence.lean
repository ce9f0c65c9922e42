import CityPods.Dispatch.JobTables
import Mathlib.Data.List.Perm.Subperm

/-! # Coherent job tables

The index lists a job exactly while it is queued, and the registry exactly while
it is leased. A transition that writes one row and brings the index and the
registry into line with it keeps the tables coherent.
-/

namespace CityPods.Dispatch

open Foundation

def JobRow.listedKey (job : JobRow) : Option QueueKey :=
  if job.state = .queued then job.queueKey else none

structure JobTables.Coherent (tables : JobTables) : Prop where
  nodup : tables.jobs.keys.Nodup
  named : ∀ jobId job, tables.jobs.get? jobId = some job → job.id = jobId
  recorded : ∀ jobId job, tables.jobs.get? jobId = some job → job.state = .queued →
    ∃ models, job.queueModels = some models ∧ models ≠ []
  listed : ∀ jobId, tables.queue.Lists jobId ((tables.jobs.get? jobId).bind JobRow.listedKey)
  registered : ∀ jobId,
    tables.leases.Registers jobId ((tables.jobs.get? jobId).bind JobRow.leaseEntry)
  keyed : tables.leases.Keyed

variable {job : JobRow}

theorem JobRow.listedKey_of_ne (other : job.state ≠ .queued) :
    job.listedKey = none :=
  if_neg other

theorem JobRow.leaseEntry_of_ne (other : job.state ≠ .leased) :
    job.leaseEntry = none :=
  if_neg other

variable {tables : JobTables} {jobId : String}

theorem JobTables.Coherent.unlisted (coherent : tables.Coherent)
    (found : tables.jobs.get? jobId = some job)
    (other : job.state ≠ .queued) : tables.queue.Lists jobId none := by
  have listed := coherent.listed jobId
  rwa [found, Option.bind_some, JobRow.listedKey_of_ne other] at listed

theorem JobTables.Coherent.unregistered (coherent : tables.Coherent)
    (found : tables.jobs.get? jobId = some job)
    (other : job.state ≠ .leased) : tables.leases.Registers jobId none := by
  have registered := coherent.registered jobId
  rwa [found, Option.bind_some, JobRow.leaseEntry_of_ne other] at registered

structure JobTables.Keyed (tables : JobTables) : Prop where
  nodup : tables.jobs.keys.Nodup
  named : ∀ jobId job, tables.jobs.get? jobId = some job → job.id = jobId

theorem JobTables.Coherent.hasKeys (coherent : tables.Coherent) :
    tables.Keyed :=
  ⟨coherent.nodup, coherent.named⟩

theorem JobTables.Keyed.of_entries (nodup : tables.jobs.keys.Nodup)
    (named : ∀ entry ∈ tables.jobs, entry.2.id = entry.1) : tables.Keyed :=
  ⟨nodup, fun jobId job found => named (jobId, job) (Dict.get?_eq_some_mem found)⟩

theorem JobTables.Keyed.mem_values (keyed : tables.Keyed) {row : JobRow} :
    row ∈ tables.jobs.values ↔ tables.jobs.get? row.id = some row := by
  constructor
  · intro member
    obtain ⟨⟨jobId, other⟩, entry, rfl⟩ := List.mem_map.mp member
    have found := Dict.get?_of_mem keyed.nodup entry
    rwa [keyed.named jobId _ found]
  · intro found
    exact List.mem_map.mpr ⟨(row.id, row), Dict.get?_eq_some_mem found, rfl⟩

theorem JobTables.Keyed.eq_of_id (keyed : tables.Keyed)
    {left right : JobRow} (here : left ∈ tables.jobs.values) (there : right ∈ tables.jobs.values)
    (same : left.id = right.id) : left = right := by
  have read := keyed.mem_values.mp here
  rw [same, keyed.mem_values.mp there] at read
  exact (Option.some.inj read).symm

/-- No two jobs have one identifier. -/
theorem JobTables.Keyed.pairwise_id (keyed : tables.Keyed) :
    tables.jobs.values.Pairwise fun left right => left.id ≠ right.id := by
  have entries : tables.jobs.Pairwise fun left right => left.1 ≠ right.1 :=
    List.pairwise_map.mp keyed.nodup
  refine List.pairwise_map.mpr (entries.imp_of_mem fun {left right} here there different same => ?_)
  refine different ?_
  have leftNamed := keyed.named _ _ (Dict.get?_of_mem keyed.nodup here)
  have rightNamed := keyed.named _ _ (Dict.get?_of_mem keyed.nodup there)
  rw [← leftNamed, ← rightNamed, same]

/-! ## Writing a row -/

/-- One row is written and its entries follow; nothing else changes. -/
structure JobTables.Writes (job : JobRow) (before after : JobTables) : Prop where
  jobs : after.jobs = before.jobs.set job.id job
  recorded : job.state = .queued → ∃ models, job.queueModels = some models ∧ models ≠ []
  lists : after.queue.Lists job.id job.listedKey
  sparesQueue : QueueIndex.Spares job.id before.queue after.queue
  registers : after.leases.Registers job.id job.leaseEntry
  sparesLeases : LeaseRegistry.Spares job.id before.leases after.leases
  keyed : before.leases.Keyed → after.leases.Keyed

theorem JobTables.Writes.coherent {before after : JobTables}
    (writes : Writes job before after) (coherent : before.Coherent) : after.Coherent where
  nodup := by
    rw [writes.jobs]
    exact Dict.nodup_keys_set coherent.nodup job.id job
  named := by
    intro jobId found read
    rw [writes.jobs, Dict.get?_set] at read
    split at read
    · next same =>
      rw [← Option.some.inj read, same]
    · exact coherent.named jobId found read
  recorded := by
    intro jobId found read queued
    rw [writes.jobs, Dict.get?_set] at read
    split at read
    · rw [← Option.some.inj read] at queued ⊢
      exact writes.recorded queued
    · exact coherent.recorded jobId found read queued
  listed := by
    intro jobId
    rw [writes.jobs, Dict.get?_set]
    split
    · next same =>
      exact same ▸ writes.lists
    · next different =>
      exact writes.sparesQueue jobId _ (fun same => different same.symm) (coherent.listed jobId)
  registered := by
    intro jobId
    rw [writes.jobs, Dict.get?_set]
    split
    · next same =>
      exact same ▸ writes.registers
    · next different =>
      exact writes.sparesLeases jobId _ (fun same => different same.symm)
        (coherent.registered jobId)
  keyed := writes.keyed coherent.keyed

theorem JobTables.Coherent.deleteRow (coherent : tables.Coherent)
    (found : tables.jobs.get? jobId = some job)
    (notQueued : job.state ≠ .queued) (notLeased : job.state ≠ .leased) :
    (tables.deleteRow jobId).Coherent where
  nodup := Dict.nodup_keys_erase coherent.nodup jobId
  named := by
    intro other row read
    simp only [JobTables.deleteRow, Dict.get?_erase] at read
    split at read
    · cases read
    · exact coherent.named other row read
  recorded := by
    intro other row read queued
    simp only [JobTables.deleteRow, Dict.get?_erase] at read
    split at read
    · cases read
    · exact coherent.recorded other row read queued
  listed := by
    intro other
    simp only [JobTables.deleteRow, Dict.get?_erase]
    split
    · next same =>
      exact same ▸ coherent.unlisted found notQueued
    · exact coherent.listed other
  registered := by
    intro other
    simp only [JobTables.deleteRow, Dict.get?_erase]
    split
    · next same =>
      exact same ▸ coherent.unregistered found notLeased
    · exact coherent.registered other
  keyed := coherent.keyed

/-! ## Histories of edits -/

structure Change where
  jobId : String
  before : Option JobRow
  after : Option JobRow

/-- The tables come about by these changes of rows, one after the other. -/
inductive JobTables.Edits : List Change → JobTables → JobTables → Prop
  | refl (tables : JobTables) : Edits [] tables tables
  | write {changes : List Change} {start middle after : JobTables} {job : JobRow}
      (earlier : Edits changes start middle) (writes : Writes job middle after) :
      Edits (changes ++ [⟨job.id, middle.jobs.get? job.id, some job⟩]) start after
  | delete {changes : List Change} {start middle : JobTables} {jobId : String} {job : JobRow}
      (earlier : Edits changes start middle) (found : middle.jobs.get? jobId = some job)
      (notQueued : job.state ≠ .queued) (notLeased : job.state ≠ .leased) :
      Edits (changes ++ [⟨jobId, some job, none⟩]) start (middle.deleteRow jobId)

namespace JobTables.Edits

variable {changes later : List Change} {start middle after : JobTables}

theorem coherent (edits : Edits changes start after) (initial : start.Coherent) :
    after.Coherent := by
  induction edits with
  | refl => exact initial
  | write earlier writes induction => exact writes.coherent (induction initial)
  | delete earlier found notQueued notLeased induction =>
      exact (induction initial).deleteRow found notQueued notLeased

theorem trans (first : Edits changes start middle) (second : Edits later middle after) :
    Edits (changes ++ later) start after := by
  induction second with
  | refl => rwa [List.append_nil]
  | write earlier writes induction =>
      rw [← List.append_assoc]
      exact .write (induction first) writes
  | delete earlier found notQueued notLeased induction =>
      rw [← List.append_assoc]
      exact .delete (induction first) found notQueued notLeased

theorem one (writes : Writes job start after) :
    Edits [⟨job.id, start.jobs.get? job.id, some job⟩] start after :=
  .write (.refl start) writes

def gain {μ : Type} [AddCommGroup μ] (weight : JobRow → μ) (changes : List Change) : μ :=
  (changes.map fun change => (change.after.elim 0 weight) - change.before.elim 0 weight).sum

section

variable {μ : Type} [AddCommGroup μ] (weight : JobRow → μ)

@[simp] theorem gain_nil : gain weight [] = 0 := rfl

@[simp] theorem gain_append (first second : List Change) :
    gain weight (first ++ second) = gain weight first + gain weight second := by
  simp [gain]

@[simp] theorem gain_singleton (change : Change) :
    gain weight [change] = change.after.elim 0 weight - change.before.elim 0 weight := by
  simp [gain]

theorem total (edits : Edits changes start after) (initial : start.Coherent) :
    Dict.total weight after.jobs = Dict.total weight start.jobs + gain weight changes := by
  induction edits with
  | refl => rw [gain_nil, add_zero]
  | @write changes start middle after job earlier writes induction =>
      rw [gain_append, gain_singleton, ← add_assoc, ← induction initial, writes.jobs]
      cases found : middle.jobs.get? job.id with
      | none =>
          rw [Dict.total_set_new weight found]
          simp
      | some old =>
          have both := Dict.total_set weight found job
          simp only [Option.elim_some]
          rw [← add_sub_assoc, ← both, add_sub_cancel_right]
  | @delete changes start middle jobId job earlier found notQueued notLeased induction =>
      have both := Dict.total_erase weight (earlier.coherent initial).nodup found
      rw [gain_append, gain_singleton, ← add_assoc, ← induction initial]
      simp only [Option.elim_some, Option.elim_none, zero_sub]
      rw [← both]
      show Dict.total weight (middle.jobs.erase jobId) = _
      rw [add_neg_cancel_right]

end

/-- What every change of a job's row keeps to, the whole history keeps to. -/
theorem relates {relation : Option JobRow → Option JobRow → Prop} (refl : ∀ row, relation row row)
    (trans : ∀ first second third, relation first second → relation second third →
      relation first third)
    (edits : Edits changes start after) (jobId : String)
    (each : ∀ change ∈ changes, change.jobId = jobId → relation change.before change.after) :
    relation (start.jobs.get? jobId) (after.jobs.get? jobId) := by
  induction edits with
  | refl => exact refl _
  | @write changes start middle after job earlier writes induction =>
      have before := induction fun change member =>
        each change (List.mem_append_left _ member)
      rw [writes.jobs, Dict.get?_set]
      split
      · next same =>
        subst same
        exact trans _ _ _ before (each _ (List.mem_append_right _ List.mem_cons_self) rfl)
      · exact before
  | @delete changes start middle removed job earlier found notQueued notLeased induction =>
      have before := induction fun change member =>
        each change (List.mem_append_left _ member)
      show relation _ ((middle.jobs.erase removed).get? jobId)
      rw [Dict.get?_erase]
      split
      · next same =>
        subst same
        rw [found] at before
        exact trans _ _ _ before (each _ (List.mem_append_right _ List.mem_cons_self) rfl)
      · exact before

end JobTables.Edits

/-! ## The transitions -/

theorem JobTables.spares_writeRow (tables : JobTables) (job : JobRow) :
    QueueIndex.Spares job.id tables.queue (tables.writeRow job).queue := by
  cases found : tables.jobs.get? job.id with
  | none =>
      simp only [JobTables.writeRow, found]
      exact .refl _ _
  | some before =>
      simp only [JobTables.writeRow, found]
      exact QueueIndex.spares_syncPriority _ _ _ _

theorem JobTables.lists_writeRow_none (job : JobRow)
    (absent : tables.queue.Lists job.id none) : (tables.writeRow job).queue.Lists job.id none := by
  cases found : tables.jobs.get? job.id with
  | none => simpa only [JobTables.writeRow, found] using absent
  | some before =>
      simp only [JobTables.writeRow, found]
      exact QueueIndex.lists_syncPriority_none absent before job

/-- Without a change of priority the trigger does not fire. -/
theorem JobTables.queue_writeRow {job before : JobRow}
    (found : tables.jobs.get? job.id = some before) (same : job.priority = before.priority) :
    (tables.writeRow job).queue = tables.queue := by
  simp only [JobTables.writeRow, found, QueueIndex.syncPriority, if_pos same]

variable {models : List String}

theorem JobRow.recorded_inQueue (job : JobRow) (nonempty : models ≠ []) :
    (job.inQueue models).state = .queued →
      ∃ recorded, (job.inQueue models).queueModels = some recorded ∧ recorded ≠ [] :=
  fun _ => ⟨models, rfl, nonempty⟩

theorem JobTables.writes_inQueue (tables : JobTables)
    (nonempty : models ≠ []) (unlisted : tables.queue.Lists job.id none)
    (unregistered : tables.leases.Registers job.id none) :
    Writes (job.inQueue models) tables ((tables.writeRow (job.inQueue models)).indexJob job
      models) where
  jobs := rfl
  recorded := job.recorded_inQueue nonempty
  lists := QueueIndex.lists_index (lists_writeRow_none (job.inQueue models) unlisted) _
  sparesQueue := (tables.spares_writeRow (job.inQueue models)).trans
    (QueueIndex.spares_index _ _ _)
  registers := unregistered
  sparesLeases := .refl _ _
  keyed := id

namespace JobTables.Coherent

variable {tables after : JobTables} {row job : JobRow} {models : List String}

theorem insertQueued (coherent : tables.Coherent) (nonempty : models ≠ [])
    (inserted : tables.insertQueued job models = some after) :
    tables.jobs.get? job.id = none ∧ Writes (job.inQueue models) tables after := by
  unfold JobTables.insertQueued at inserted
  split at inserted
  · cases inserted
  next free =>
    have absent : tables.jobs.get? job.id = none := by
      cases found : tables.jobs.get? job.id with
      | none => rfl
      | some row => exact absurd (.inl (by rw [found]; rfl)) free
    have listed := coherent.listed job.id
    have registered := coherent.registered job.id
    rw [absent, Option.bind_none] at listed registered
    rw [← Option.some.inj inserted]
    exact ⟨absent, writes_inQueue tables nonempty listed registered⟩

theorem unindexJob (coherent : tables.Coherent) (found : tables.jobs.get? job.id = some job)
    (queued : job.state = .queued) :
    ∃ queue, tables.unindexJob job = some { tables with queue := queue } ∧
      queue.Lists job.id none ∧ QueueIndex.Spares job.id tables.queue queue := by
  obtain ⟨names, recorded, _⟩ := coherent.recorded _ _ found queued
  have listed := coherent.listed job.id
  have key : job.queueKey = some ⟨names, job.priority, job.createdAt⟩ := by
    simp [JobRow.queueKey, recorded]
  rw [found, Option.bind_some, JobRow.listedKey, if_pos queued, key] at listed
  obtain ⟨queue, unindexed, unlisted, spares⟩ := QueueIndex.lists_unindex key listed
  exact ⟨queue, by rw [JobTables.unindexJob, unindexed, Option.map_some], unlisted, spares⟩

theorem supersede (coherent : tables.Coherent) (nonempty : models ≠ [])
    (found : tables.jobs.get? job.id = some row) (notLeased : row.state ≠ .leased)
    (superseded : tables.supersede row job models = some after) :
    Writes (job.inQueue models) tables after := by
  have named := coherent.named _ _ found
  have unregistered := coherent.unregistered found notLeased
  unfold JobTables.supersede at superseded
  by_cases queued : row.state = .queued
  · have foundRow : tables.jobs.get? row.id = some row := by rwa [named]
    obtain ⟨queue, unindexed, unlisted, spares⟩ := coherent.unindexJob foundRow queued
    rw [if_pos queued, unindexed, Option.bind_some] at superseded
    split at superseded
    · cases superseded
    rw [← Option.some.inj superseded]
    rw [named] at unlisted spares
    have writes := writes_inQueue { tables with queue := queue } nonempty unlisted
      unregistered
    exact { writes with sparesQueue := spares.trans writes.sparesQueue }
  · rw [if_neg queued, Option.bind_some] at superseded
    split at superseded
    · cases superseded
    rw [← Option.some.inj superseded]
    exact writes_inQueue tables nonempty (coherent.unlisted found queued) unregistered

theorem requeue (coherent : tables.Coherent) (nonempty : models ≠ [])
    (found : tables.jobs.get? job.id = some row) (leased : row.state = .leased) :
    Writes (job.released.inQueue models) tables (tables.requeue job models) := by
  have unlisted : tables.queue.Lists job.released.id none :=
    coherent.unlisted found (by rw [leased]; decide)
  have indexed := QueueIndex.lists_index
    (lists_writeRow_none (job.released.inQueue models) unlisted)
    ⟨models, job.priority, job.createdAt⟩
  have deleted := LeaseRegistry.registers_leaseDelete tables.leases job.id
  exact {
    jobs := rfl
    recorded := job.released.recorded_inQueue nonempty
    lists := indexed
    sparesQueue := (tables.spares_writeRow (job.released.inQueue models)).trans
      (QueueIndex.spares_index _ _ _)
    registers := deleted.1
    sparesLeases := deleted.2
    keyed := fun keyed => LeaseRegistry.keyed_leaseDelete keyed job.id }

theorem reindex (coherent : tables.Coherent) (nonempty : models ≠ [])
    (found : tables.jobs.get? job.id = some job) (queued : job.state = .queued) :
    ∃ after, tables.reindex job models = some after ∧
      Writes (job.inQueue models) tables after := by
  obtain ⟨queue, unindexed, unlisted, spares⟩ := coherent.unindexJob found queued
  have writes := writes_inQueue { tables with queue := queue } nonempty unlisted
    (coherent.unregistered found (by rw [queued]; decide))
  exact ⟨_, by rw [JobTables.reindex, unindexed, Option.map_some],
    { writes with sparesQueue := spares.trans writes.sparesQueue }⟩

theorem withdraw (coherent : tables.Coherent) (found : tables.jobs.get? job.id = some job)
    (queued : job.state = .queued) {withdrawn : JobRow} (named : withdrawn.id = job.id)
    (notQueued : withdrawn.state ≠ .queued) (notLeased : withdrawn.state ≠ .leased) :
    ∃ after, tables.withdraw job withdrawn = some after ∧ Writes withdrawn tables after := by
  obtain ⟨queue, unindexed, unlisted, spares⟩ := coherent.unindexJob found queued
  have unregistered := coherent.unregistered found (by rw [queued]; decide)
  rw [← named] at unlisted unregistered spares
  exact ⟨_, by rw [JobTables.withdraw, unindexed, Option.map_some], {
    jobs := rfl
    recorded := fun still => absurd still notQueued
    lists := by
      rw [JobRow.listedKey_of_ne notQueued]
      exact lists_writeRow_none _ unlisted
    sparesQueue := spares.trans
      (JobTables.spares_writeRow { tables with queue := queue } withdrawn)
    registers := by
      rw [JobRow.leaseEntry_of_ne notLeased]
      exact unregistered
    sparesLeases := .refl _ _
    keyed := id }⟩

theorem lease (coherent : tables.Coherent) (found : tables.jobs.get? job.id = some job)
    (queued : job.state = .queued) {leased : JobRow} {entry : LeaseEntry}
    (named : leased.id = job.id) (priority : leased.priority = job.priority)
    (state : leased.state = .leased) (registered : leased.leaseEntry = some entry)
    (taken : tables.lease job leased entry = some after) : Writes leased tables after := by
  obtain ⟨queue, unindexed, unlisted, spares⟩ := coherent.unindexJob found queued
  unfold JobTables.lease JobTables.leaseSet at taken
  cases written : tables.leases.leaseSet job.id entry with
  | none =>
      rw [written] at taken
      cases taken
  | some leases =>
      rw [written, Option.map_some, Option.bind_some] at taken
      have unmoved : ({ tables with leases := leases }.writeRow leased).queue = tables.queue :=
        queue_writeRow (by rw [named]; exact found) priority
      have registers := LeaseRegistry.registers_leaseSet written
      have removed : ({ tables with leases := leases }.writeRow leased).unindexJob job =
          some { { tables with leases := leases }.writeRow leased with queue := queue } := by
        unfold JobTables.unindexJob at unindexed ⊢
        rw [unmoved]
        cases edited : tables.queue.unindexQueuedJob job with
        | none =>
            rw [edited] at unindexed
            cases unindexed
        | some other =>
            rw [edited] at unindexed
            have same : other = queue :=
              congrArg JobTables.queue (Option.some.inj unindexed)
            rw [Option.map_some, same]
      rw [removed, Option.some.injEq] at taken
      subst taken
      have notQueued : leased.state ≠ .queued := by
        rw [state]
        decide
      rw [← named] at unlisted registers spares
      exact {
        jobs := rfl
        recorded := fun still => absurd still notQueued
        lists := by
          rw [JobRow.listedKey_of_ne notQueued]
          exact unlisted
        sparesQueue := spares
        registers := by
          rw [registered]
          exact registers.1
        sparesLeases := registers.2
        keyed := LeaseRegistry.keyed_leaseSet written }

theorem settle (coherent : tables.Coherent) (found : tables.jobs.get? job.id = some row)
    (leased : row.state = .leased) (notQueued : job.state ≠ .queued)
    (notLeased : job.state ≠ .leased) : Writes job tables (tables.settle job) := by
  have unlisted := coherent.unlisted found (by rw [leased]; decide)
  have deleted := LeaseRegistry.registers_leaseDelete tables.leases job.id
  exact {
    jobs := rfl
    recorded := fun still => absurd still notQueued
    lists := by
      rw [JobRow.listedKey_of_ne notQueued]
      exact lists_writeRow_none _ unlisted
    sparesQueue := tables.spares_writeRow job
    registers := by
      rw [JobRow.leaseEntry_of_ne notLeased]
      exact deleted.1
    sparesLeases := deleted.2
    keyed := fun keyed => LeaseRegistry.keyed_leaseDelete keyed job.id }

/-- A row that is neither queued nor leased may move between such states. -/
theorem writeIdle (coherent : tables.Coherent) (found : tables.jobs.get? job.id = some row)
    (rowNotQueued : row.state ≠ .queued) (rowNotLeased : row.state ≠ .leased)
    (notQueued : job.state ≠ .queued) (notLeased : job.state ≠ .leased) :
    Writes job tables (tables.writeRow job) where
  jobs := rfl
  recorded still := absurd still notQueued
  lists := by
    rw [JobRow.listedKey_of_ne notQueued]
    exact lists_writeRow_none _ (coherent.unlisted found rowNotQueued)
  sparesQueue := tables.spares_writeRow job
  registers := by
    rw [JobRow.leaseEntry_of_ne notLeased]
    exact coherent.unregistered found rowNotLeased
  sparesLeases := .refl _ _
  keyed := id

/-- An update that keeps the state, the recorded key and the lease columns; the
priority may change, and the trigger moves the index rows with it. -/
theorem update (coherent : tables.Coherent) (found : tables.jobs.get? job.id = some row)
    (state : job.state = row.state) (models : job.queueModels = row.queueModels)
    (created : job.createdAt = row.createdAt) (entry : job.leaseEntry = row.leaseEntry) :
    Writes job tables (tables.writeRow job) where
  jobs := rfl
  recorded queued := by
    obtain ⟨names, recorded, nonempty⟩ := coherent.recorded _ _ found (state ▸ queued)
    exact ⟨names, models.trans recorded, nonempty⟩
  lists := by
    have listed := coherent.listed job.id
    rw [found, Option.bind_some] at listed
    by_cases queued : row.state = .queued
    · rw [JobRow.listedKey, if_pos queued] at listed
      rw [JobRow.listedKey, if_pos (state.trans queued)]
      simp only [JobTables.writeRow, found]
      exact QueueIndex.lists_syncPriority models created listed
    · rw [JobRow.listedKey_of_ne queued] at listed
      rw [JobRow.listedKey_of_ne fun still => queued (state ▸ still)]
      exact lists_writeRow_none _ listed
  sparesQueue := tables.spares_writeRow job
  registers := by
    have registered := coherent.registered job.id
    rwa [found, Option.bind_some, ← entry] at registered
  sparesLeases := .refl _ _
  keyed := id

end JobTables.Coherent

/-! ## Candidates -/

theorem QueuePosition.subperm_readScan (jobs : Dict String JobRow) (after : Option QueuePosition)
    (limit : Nat) (scan : List QueuePosition) :
    ((readScan jobs after limit scan).map Candidate.position).Subperm scan := by
  have joined (positions : List QueuePosition) :
      ((positions.filterMap (candidateAt jobs)).map Candidate.position).Sublist positions := by
    have listed : ((positions.filterMap (candidateAt jobs)).map Candidate.position).Sublist
        (positions.map id) := by
      apply sublist_map_filterMap
      intro position _ candidate read
      unfold candidateAt at read
      split at read
      · split at read
        · cases read
          rfl
        · cases read
      · cases read
    rwa [List.map_id] at listed
  unfold readScan
  have taken := ((List.take_sublist limit (((scan.filter fun position =>
    (after.map fun start => start.precedes position).getD true).filterMap
      (candidateAt jobs)).mergeSort Candidate.notAfter)).map Candidate.position).subperm
  refine taken.trans (((List.mergeSort_perm _ _).map _).subperm.trans ?_)
  exact ((joined _).trans List.filter_sublist).subperm

theorem QueueIndex.subperm_readCandidates (jobs : Dict String JobRow) (model : String)
    (after : Option QueuePosition) (limit : Nat) (queue : QueueIndex) :
    ((queue.readCandidates jobs model after limit).map Candidate.position).Subperm
      (queue.scans model).flatten := by
  unfold readCandidates
  suffices merged : ∀ (scans : List (List QueuePosition)) (candidates : List Candidate)
      (before : List QueuePosition), (candidates.map Candidate.position).Subperm before →
      ((scans.foldl (fun candidates scan =>
          (candidates.merge (readScan jobs after limit scan) Candidate.notAfter).take limit)
          candidates).map Candidate.position).Subperm (before ++ scans.flatten) from
    merged _ [] [] (List.Subperm.refl [])
  intro scans
  induction scans with
  | nil =>
      intro candidates before read
      rwa [List.flatten_nil, List.append_nil]
  | cons scan rest induction =>
      intro candidates before read
      rw [List.flatten_cons, ← List.append_assoc]
      apply induction
      refine ((List.take_sublist _ _).map _).subperm.trans ?_
      refine ((List.merge_perm_append _).map _).subperm.trans ?_
      rw [List.map_append]
      exact List.Subperm.append read (QueuePosition.subperm_readScan jobs after limit scan)

variable {keys : String → Option QueueKey}

theorem QueueIndex.nodup_scans {queue : QueueIndex}
    (listed : ∀ jobId, queue.Lists jobId (keys jobId)) (model : String) :
    ((queue.scans model).flatten.map QueuePosition.jobId).Nodup := by
  cases queue with
  | legacy rows =>
      have same : (QueueIndex.scans model (.legacy rows)).flatten.map QueuePosition.jobId =
          (rows.dedup.filter fun row => decide (row.model = model)).map ModelRow.jobId := by
        simp [QueueIndex.scans, Function.comp_def]
      rw [same]
      refine List.Nodup.map_on ?_ ((List.nodup_dedup rows).filter _)
      intro left leftMember right rightMember owner
      obtain ⟨leftStored, leftModel⟩ := List.mem_filter.mp leftMember
      obtain ⟨rightStored, rightModel⟩ := List.mem_filter.mp rightMember
      have holds := listed right.jobId
      have leftEntry := (holds left owner).mp (List.mem_dedup.mp leftStored)
      have rightEntry := (holds right rfl).mp (List.mem_dedup.mp rightStored)
      cases key : keys right.jobId with
      | none =>
          rw [key] at leftEntry
          cases leftEntry
      | some key' =>
          rw [key] at leftEntry rightEntry
          obtain ⟨first, _, rfl⟩ := List.mem_map.mp leftEntry
          obtain ⟨second, _, same⟩ := List.mem_map.mp rightEntry
          rw [← same] at rightModel ⊢
          have models : first = second :=
            (of_decide_eq_true leftModel).trans (of_decide_eq_true rightModel).symm
          rw [models]
  | compact rows groups =>
      have same : (QueueIndex.scans model (.compact rows groups)).flatten.map QueuePosition.jobId =
          ((groups.dedup.filter fun group => decide (group.model = model)).flatMap fun group =>
            rows.dedup.filter fun row => decide (row.modelSet = group.modelSet)).map
              QueueRow.jobId := by
        simp [QueueIndex.scans, List.flatMap_def, Function.comp_def]
      rw [same]
      refine List.Nodup.map_on ?_ (List.nodup_flatMap.mpr ⟨?_, ?_⟩)
      · intro left leftMember right rightMember owner
        obtain ⟨_, _, leftStored⟩ := List.mem_flatMap.mp leftMember
        obtain ⟨_, _, rightStored⟩ := List.mem_flatMap.mp rightMember
        have holds := (listed right.jobId).1
        have leftEntry := (holds left owner).mp
          (List.mem_dedup.mp (List.mem_filter.mp leftStored).1)
        have rightEntry := (holds right rfl).mp
          (List.mem_dedup.mp (List.mem_filter.mp rightStored).1)
        cases key : keys right.jobId with
        | none =>
            rw [key] at leftEntry
            cases leftEntry
        | some key' =>
            rw [key] at leftEntry rightEntry
            exact (List.mem_singleton.mp leftEntry).trans (List.mem_singleton.mp rightEntry).symm
      · exact fun _ _ => (List.nodup_dedup rows).filter _
      · refine ((List.nodup_dedup groups).filter _).imp_of_mem ?_
        intro left right leftMember rightMember different row leftRow rightRow
        apply different
        have leftModel := of_decide_eq_true (List.mem_filter.mp leftMember).2
        have rightModel := of_decide_eq_true (List.mem_filter.mp rightMember).2
        have leftSet := of_decide_eq_true (List.mem_filter.mp leftRow).2
        have rightSet := of_decide_eq_true (List.mem_filter.mp rightRow).2
        cases left
        cases right
        simp_all

theorem JobTables.Keyed.readCandidates (keyed : tables.Keyed)
    (listed : ∀ jobId, tables.queue.Lists jobId (keys jobId))
    (model : String) (after : Option QueuePosition) (limit : Nat) :
    let candidates := tables.queue.readCandidates tables.jobs model after limit
    (candidates.map fun candidate => candidate.job.id).Nodup ∧
      ∀ candidate ∈ candidates, tables.jobs.get? candidate.job.id = some candidate.job ∧
        candidate.job.state = .queued := by
  have queued : ∀ candidate ∈ tables.queue.readCandidates tables.jobs model after limit,
      candidate.job.id = candidate.position.jobId ∧
        tables.jobs.get? candidate.job.id = some candidate.job ∧
          candidate.job.state = .queued := by
    intro candidate member
    obtain ⟨found, state⟩ := Dispatch.queued_of_mem_readCandidates member
    have named := keyed.named _ _ found
    exact ⟨named, by rwa [named], state⟩
  refine ⟨?_, fun candidate member => (queued candidate member).2⟩
  have same : (tables.queue.readCandidates tables.jobs model after limit).map
      (fun candidate => candidate.job.id) =
        ((tables.queue.readCandidates tables.jobs model after limit).map
          Candidate.position).map QueuePosition.jobId := by
    rw [List.map_map]
    exact List.map_congr_left fun candidate member => (queued candidate member).1
  rw [same]
  obtain ⟨positions, perm, sublist⟩ :=
    QueueIndex.subperm_readCandidates tables.jobs model after limit tables.queue
  refine ((perm.map QueuePosition.jobId).nodup_iff).mp ?_
  exact (QueueIndex.nodup_scans listed model).sublist (sublist.map _)

theorem JobTables.Coherent.readCandidates (coherent : tables.Coherent)
    (model : String) (after : Option QueuePosition) (limit : Nat) :
    let jobs := (tables.queue.readCandidates tables.jobs model after limit).map Candidate.job
    (jobs.map JobRow.id).Nodup ∧
      ∀ job ∈ jobs, tables.jobs.get? job.id = some job ∧ job.state = .queued := by
  obtain ⟨distinct, queued⟩ := coherent.hasKeys.readCandidates coherent.listed model after limit
  refine ⟨?_, ?_⟩
  · rw [List.map_map]
    exact distinct
  · intro job member
    obtain ⟨candidate, read, rfl⟩ := List.mem_map.mp member
    exact queued candidate read

end CityPods.Dispatch
