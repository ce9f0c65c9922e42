import CityPods.Dispatch.Jobs
import CityPods.Foundation.SecondaryIndex

/-! # The queue index

The index of queued jobs by model, in either format: one row for each job and
model, or one row for each job under its model set together with the sets of
each model.
-/

namespace CityPods.Dispatch

open Foundation
open Foundation.SecondaryIndex (Holds insertAll deleteAll)

/-! ## Rows -/

/-- What a queued job is indexed under. -/
structure QueueKey where
  models : List String
  priority : Nat
  createdAt : ℚ
  deriving DecidableEq

/-- The key recorded on a job's row; a row older than the column has none. -/
def JobRow.queueKey (job : JobRow) : Option QueueKey :=
  job.queueModels.map fun models => ⟨models, job.priority, job.createdAt⟩

/-- A row of `job_models`. -/
structure ModelRow where
  jobId : String
  model : String
  priority : Nat
  createdAt : ℚ
  deriving DecidableEq

/-- A row of `compact_queue`. -/
structure QueueRow where
  modelSet : List String
  priority : Nat
  createdAt : ℚ
  jobId : String
  deriving DecidableEq

/-- A row of `compact_groups`. -/
structure GroupRow where
  model : String
  modelSet : List String
  deriving DecidableEq

inductive QueueIndex
  | legacy (rows : List ModelRow)
  | compact (rows : List QueueRow) (groups : List GroupRow)
  deriving DecidableEq

def QueueKey.modelRows (key : QueueKey) (jobId : String) : List ModelRow :=
  key.models.map fun model => ⟨jobId, model, key.priority, key.createdAt⟩

def QueueKey.queueRow (key : QueueKey) (jobId : String) : QueueRow :=
  ⟨key.models, key.priority, key.createdAt, jobId⟩

def QueueKey.groupRows (key : QueueKey) : List GroupRow :=
  key.models.map fun model => ⟨model, key.models⟩

/-! ## Edits -/

def QueueIndex.indexQueuedJobModels (jobId : String) (key : QueueKey) : QueueIndex → QueueIndex
  | .legacy rows => .legacy (insertAll rows (key.modelRows jobId))
  | .compact rows groups =>
      .compact (insertAll rows [key.queueRow jobId]) (insertAll groups key.groupRows)

/-- Delete a queued job's rows by the key its row records. The compact format has
no other way to find them. -/
def QueueIndex.unindexQueuedJob (job : JobRow) : QueueIndex → Option QueueIndex
  | .legacy rows =>
      match job.queueKey with
      | some key => some (.legacy (deleteAll rows (key.modelRows job.id)))
      | none => some (.legacy (rows.filter fun row => decide (row.jobId ≠ job.id)))
  | .compact rows groups =>
      job.queueKey.map fun key => .compact (deleteAll rows [key.queueRow job.id]) groups

def moveModelRow (jobId : String) (before after : JobRow) (row : ModelRow) : ModelRow :=
  match after.queueModels with
  | some models =>
      if row.model ∈ models ∧ row.priority = before.priority ∧ row.createdAt = before.createdAt ∧
          row.jobId = jobId then
        { row with priority := after.priority }
      else row
  | none => if row.jobId = jobId then { row with priority := after.priority } else row

def moveQueueRow (jobId : String) (before after : JobRow) (row : QueueRow) : QueueRow :=
  if some row.modelSet = before.queueModels ∧ row.priority = before.priority ∧
      row.createdAt = before.createdAt ∧ row.jobId = jobId then
    { row with priority := after.priority }
  else row

/-- The trigger that follows an update of a job's priority. -/
def QueueIndex.syncPriority (jobId : String) (before after : JobRow) (queue : QueueIndex) :
    QueueIndex :=
  if after.priority = before.priority then queue
  else
    match queue with
    | .legacy rows => .legacy (rows.map (moveModelRow jobId before after))
    | .compact rows groups => .compact (rows.map (moveQueueRow jobId before after)) groups

/-! ## Reads -/

/-- A place in the order in which a model's jobs are served. -/
structure QueuePosition where
  priority : Nat
  createdAt : ℚ
  jobId : String
  deriving DecidableEq

def QueuePosition.precedes (left right : QueuePosition) : Bool :=
  left.priority < right.priority ∨ (left.priority = right.priority ∧
    (left.createdAt < right.createdAt ∨
      (left.createdAt = right.createdAt ∧ left.jobId < right.jobId)))

def QueueIndex.scans (model : String) : QueueIndex → List (List QueuePosition)
  | .legacy rows =>
      [(rows.dedup.filter fun row => decide (row.model = model)).map fun row =>
        ⟨row.priority, row.createdAt, row.jobId⟩]
  | .compact rows groups =>
      (groups.dedup.filter fun group => decide (group.model = model)).map fun group =>
        (rows.dedup.filter fun row => decide (row.modelSet = group.modelSet)).map fun row =>
          ⟨row.priority, row.createdAt, row.jobId⟩

/-- Whether any job is indexed under a model. -/
def QueueIndex.hasQueued (model : String) (queue : QueueIndex) : Bool :=
  (queue.scans model).any fun scan => !scan.isEmpty

/-- A position of the index joined with the queued job it names. -/
structure Candidate where
  position : QueuePosition
  job : JobRow

def candidateAt (jobs : Dict String JobRow) (position : QueuePosition) : Option Candidate :=
  match jobs.get? position.jobId with
  | some job => if job.state = .queued then some ⟨position, job⟩ else none
  | none => none

def Candidate.notAfter (left right : Candidate) : Bool := !right.position.precedes left.position

def readScan (jobs : Dict String JobRow) (after : Option QueuePosition) (limit : Nat)
    (scan : List QueuePosition) : List Candidate :=
  (((scan.filter fun position => (after.map fun start => start.precedes position).getD true)
    |>.filterMap (candidateAt jobs)).mergeSort Candidate.notAfter).take limit

/-- The first queued jobs of a model beyond `after`, in serving order. -/
def QueueIndex.readCandidates (jobs : Dict String JobRow) (model : String)
    (after : Option QueuePosition) (limit : Nat) (queue : QueueIndex) : List Candidate :=
  (queue.scans model).foldl
    (fun candidates scan =>
      (candidates.merge (readScan jobs after limit scan) Candidate.notAfter).take limit) []

variable {jobs : Dict String JobRow} {after : Option QueuePosition} {limit : Nat}
variable {candidate : Candidate}

theorem queued_of_mem_readScan {scan : List QueuePosition}
    (member : candidate ∈ readScan jobs after limit scan) :
    jobs.get? candidate.position.jobId = some candidate.job ∧ candidate.job.state = .queued := by
  have sorted := List.mem_mergeSort.mp (List.mem_of_mem_take member)
  obtain ⟨position, _, joined⟩ := List.mem_filterMap.mp sorted
  unfold candidateAt at joined
  cases found : jobs.get? position.jobId with
  | none =>
      rw [found] at joined
      cases joined
  | some job =>
      rw [found] at joined
      by_cases queued : job.state = .queued
      · simp only [queued, if_true, Option.some.injEq] at joined
        subst joined
        exact ⟨found, queued⟩
      · simp [queued] at joined

variable {queue : QueueIndex}

theorem queued_of_mem_readCandidates {model : String}
    (member : candidate ∈ queue.readCandidates jobs model after limit) :
    jobs.get? candidate.position.jobId = some candidate.job ∧ candidate.job.state = .queued := by
  unfold QueueIndex.readCandidates at member
  suffices merged : ∀ (scans : List (List QueuePosition)) (candidates : List Candidate),
      (∀ other ∈ candidates, jobs.get? other.position.jobId = some other.job ∧
        other.job.state = .queued) →
      ∀ other ∈ scans.foldl (fun candidates scan =>
          (candidates.merge (readScan jobs after limit scan) Candidate.notAfter).take limit)
          candidates,
        jobs.get? other.position.jobId = some other.job ∧ other.job.state = .queued from
    merged _ [] (fun _ member => absurd member List.not_mem_nil) candidate member
  intro scans
  induction scans with
  | nil => exact fun _ queued => queued
  | cons scan rest induction =>
      intro candidates queued
      apply induction
      intro other read
      rcases List.mem_merge.mp (List.mem_of_mem_take read) with before | next
      · exact queued other before
      · exact queued_of_mem_readScan next

/-! ## What the index lists -/

def QueueIndex.Lists (jobId : String) (key : Option QueueKey) : QueueIndex → Prop
  | .legacy rows =>
      Holds ModelRow.jobId rows jobId ((key.map fun key => key.modelRows jobId).getD [])
  | .compact rows groups =>
      Holds QueueRow.jobId rows jobId ((key.map fun key => [key.queueRow jobId]).getD []) ∧
        ∀ listed ∈ key, ∀ group ∈ listed.groupRows, group ∈ groups

/-- An edit of one job's rows leaves the rows of the others. -/
def QueueIndex.Spares (jobId : String) (before after : QueueIndex) : Prop :=
  ∀ other key, other ≠ jobId → before.Lists other key → after.Lists other key

variable {jobId : String} {key : QueueKey} {row : ModelRow}

theorem QueueKey.jobId_of_mem_modelRows
    (member : row ∈ key.modelRows jobId) : row.jobId = jobId := by
  obtain ⟨model, _, rfl⟩ := List.mem_map.mp member
  rfl

theorem QueueIndex.lists_index (absent : queue.Lists jobId none) (key : QueueKey) :
    (queue.indexQueuedJobModels jobId key).Lists jobId (some key) := by
  cases queue with
  | legacy rows => exact absent.insertAll _
  | compact rows groups =>
      refine ⟨absent.1.insertAll _, ?_⟩
      rintro listed ⟨⟩ group member
      exact SecondaryIndex.mem_insertAll.mpr (.inr member)

theorem QueueIndex.spares_index (queue : QueueIndex) (jobId : String) (key : QueueKey) :
    Spares jobId queue (queue.indexQueuedJobModels jobId key) := by
  intro other listed different lists
  cases queue with
  | legacy rows =>
      exact Holds.insertAll_other lists fun row member same =>
        different (same.symm.trans (QueueKey.jobId_of_mem_modelRows member))
  | compact rows groups =>
      refine ⟨lists.1.insertAll_other fun row member same => ?_, ?_⟩
      · rw [List.mem_singleton.mp member] at same
        exact different same.symm
      · intro found present group member
        exact SecondaryIndex.mem_insertAll.mpr (.inl (lists.2 found present group member))

theorem QueueIndex.lists_unindex {job : JobRow}
    (recorded : job.queueKey = some key) (lists : queue.Lists job.id (some key)) :
    ∃ after, queue.unindexQueuedJob job = some after ∧ after.Lists job.id none ∧
      Spares job.id queue after := by
  cases queue with
  | legacy rows =>
      refine ⟨.legacy (deleteAll rows (key.modelRows job.id)), ?_, ?_, ?_⟩
      · rw [unindexQueuedJob, recorded]
      · exact Holds.deleteAll lists fun row member => member
      · intro other listed different held
        exact Holds.deleteAll_other held fun row member same =>
          different (same.symm.trans (QueueKey.jobId_of_mem_modelRows member))
  | compact rows groups =>
      refine ⟨.compact (deleteAll rows [key.queueRow job.id]) groups, ?_, ?_, ?_⟩
      · rw [unindexQueuedJob, recorded, Option.map_some]
      · refine ⟨lists.1.deleteAll fun row member => member, ?_⟩
        rintro listed ⟨⟩
      · intro other listed different held
        refine ⟨held.1.deleteAll_other fun row member same => ?_, held.2⟩
        rw [List.mem_singleton.mp member] at same
        exact different same.symm

/-! ### The priority trigger -/

@[simp] theorem moveModelRow_jobId (jobId : String) (before after : JobRow) (row : ModelRow) :
    (moveModelRow jobId before after row).jobId = row.jobId := by
  unfold moveModelRow
  split <;> split <;> rfl

@[simp] theorem moveQueueRow_jobId (jobId : String) (before after : JobRow) (row : QueueRow) :
    (moveQueueRow jobId before after row).jobId = row.jobId := by
  unfold moveQueueRow
  split <;> rfl

theorem moveModelRow_other (different : row.jobId ≠ jobId)
    (before after : JobRow) : moveModelRow jobId before after row = row := by
  unfold moveModelRow
  split
  · exact if_neg fun all => different all.2.2.2
  · exact if_neg different

theorem moveQueueRow_other {row : QueueRow} (different : row.jobId ≠ jobId)
    (before after : JobRow) : moveQueueRow jobId before after row = row :=
  if_neg fun all => different all.2.2.2

variable {before : JobRow}

theorem moveModelRow_own {after : JobRow} {models : List String}
    (recorded : after.queueModels = some models)
    (member : row ∈ QueueKey.modelRows ⟨models, before.priority, before.createdAt⟩ jobId) :
    moveModelRow jobId before after row = { row with priority := after.priority } := by
  obtain ⟨model, named, rfl⟩ := List.mem_map.mp member
  simp [moveModelRow, recorded, named]

/-- The trigger moves a job's rows to its new priority. -/
theorem QueueIndex.lists_syncPriority
    {after : JobRow} (models : after.queueModels = before.queueModels)
    (created : after.createdAt = before.createdAt) (lists : queue.Lists jobId before.queueKey) :
    (queue.syncPriority jobId before after).Lists jobId after.queueKey := by
  unfold syncPriority
  by_cases same : after.priority = before.priority
  · have keys : after.queueKey = before.queueKey := by
      unfold JobRow.queueKey
      rw [models, created, same]
    rwa [if_pos same, keys]
  rw [if_neg same]
  cases recorded : before.queueModels with
  | none =>
      rw [recorded] at models
      simp only [JobRow.queueKey, recorded, models, Option.map_none] at lists ⊢
      cases queue with
      | legacy rows =>
          exact Holds.map lists (fun row member => absurd member List.not_mem_nil)
            fun row => moveModelRow_jobId _ _ _ row
      | compact rows groups =>
          exact ⟨lists.1.map (fun row member => absurd member List.not_mem_nil)
            fun row => moveQueueRow_jobId _ _ _ row, lists.2⟩
  | some names =>
      rw [recorded] at models
      simp only [JobRow.queueKey, recorded, models, Option.map_some, created] at lists ⊢
      cases queue with
      | legacy rows =>
          have moved := Holds.map lists
            (fun row member => QueueKey.jobId_of_mem_modelRows member)
            (fun row => moveModelRow_jobId jobId before after row)
          have entries : (QueueKey.modelRows ⟨names, before.priority, before.createdAt⟩ jobId).map
              (moveModelRow jobId before after) =
                QueueKey.modelRows ⟨names, after.priority, before.createdAt⟩ jobId := by
            rw [List.map_congr_left fun row member => moveModelRow_own models member]
            simp [QueueKey.modelRows]
          exact (congrArg (Holds ModelRow.jobId _ jobId) entries).mp moved
      | compact rows groups =>
          have moved := Holds.map lists.1
            (fun row member => by rw [List.mem_singleton.mp member]; rfl)
            (fun row => moveQueueRow_jobId jobId before after row)
          refine ⟨?_, ?_⟩
          · simpa [QueueKey.queueRow, moveQueueRow, recorded] using moved
          · rintro listed ⟨⟩ group member
            exact lists.2 _ rfl group member

theorem QueueIndex.lists_syncPriority_none
    (absent : queue.Lists jobId none) (before after : JobRow) :
    (queue.syncPriority jobId before after).Lists jobId none := by
  unfold syncPriority
  split
  · exact absent
  cases queue with
  | legacy rows =>
      exact Holds.map absent (fun row member => absurd member List.not_mem_nil)
        fun row => moveModelRow_jobId _ _ _ row
  | compact rows groups =>
      exact ⟨absent.1.map (fun row member => absurd member List.not_mem_nil)
        fun row => moveQueueRow_jobId _ _ _ row, absent.2⟩

theorem QueueIndex.spares_syncPriority (queue : QueueIndex) (jobId : String)
    (before after : JobRow) : Spares jobId queue (queue.syncPriority jobId before after) := by
  intro other key different lists
  unfold syncPriority
  split
  · exact lists
  cases queue with
  | legacy rows =>
      exact Holds.map_other lists (fun row => moveModelRow_jobId _ _ _ row) fun row here =>
        moveModelRow_other (fun same => different (here.symm.trans same)) before after
  | compact rows groups =>
      exact ⟨lists.1.map_other (fun row => moveQueueRow_jobId _ _ _ row) fun row here =>
        moveQueueRow_other (fun same => different (here.symm.trans same)) before after, lists.2⟩

theorem QueueIndex.Spares.refl (jobId : String) (queue : QueueIndex) : Spares jobId queue queue :=
  fun _ _ _ lists => lists

theorem QueueIndex.Spares.trans {first second third : QueueIndex}
    (left : Spares jobId first second) (right : Spares jobId second third) :
    Spares jobId first third :=
  fun other key different lists => right other key different (left other key different lists)

end CityPods.Dispatch
