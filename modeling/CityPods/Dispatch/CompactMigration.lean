import CityPods.Dispatch.CompactTables

/-! # Migration of the queue

The planners of the cutover and the rollback accept the states in which queue
and jobs agree. What one of them builds is indexed, edits keep it so, and the
other accepts it again.
-/

namespace CityPods.Dispatch

open Foundation SecondaryIndex

/-! ## Recorded model sets -/

/-- The model sets that both planners accept. -/
def ModelSet (models : List String) : Prop := models ≠ [] ∧ "" ∉ models ∧ models.Nodup

instance (models : List String) : Decidable (ModelSet models) :=
  inferInstanceAs (Decidable (_ ∧ _ ∧ _))

def QueuedRow.Records (job : QueuedRow) (models : List String) : Prop :=
  job.queueModels = some (JsonStrings.stringify models)

variable {models : List String}

theorem QueuedRow.Records.unique {job : QueuedRow} {others : List String}
    (records : job.Records models) (also : job.Records others) : models = others :=
  JsonStrings.stringify_injective (Option.some.inj (records.symm.trans also))

variable {job : QueuedRow}

theorem QueuedRow.models_eq_some :
    job.models = some models ↔ job.Records models ∧ ModelSet models := by
  unfold QueuedRow.models QueuedRow.Records ModelSet
  constructor
  · intro accepted
    split at accepted
    · cases accepted
    · split at accepted
      · cases accepted
      · next valid =>
        cases accepted
        rw [not_or, not_or, not_or] at valid
        obtain ⟨some, named, distinct, text⟩ := valid
        exact ⟨(not_not.mp text).symm, by simpa using some, named, not_not.mp distinct⟩
  · rintro ⟨text, some, named, distinct⟩
    rw [text, Option.bind_some, JsonStrings.parse_stringify]
    simp [some, named, distinct]

/-- A job's recorded models, where its text is valid. -/
def QueuedRow.modelList (job : QueuedRow) : List String := job.models.getD []

theorem QueuedRow.models_eq (accepted : job.models.isSome) :
    job.models = some job.modelList := by
  obtain ⟨models, found⟩ := Option.isSome_iff_exists.mp accepted
  rw [modelList, found, Option.getD_some]

def QueuedRow.modelRows (job : QueuedRow) : List ModelRow :=
  (job.key job.modelList).modelRows job.id

/-! ## What the cutover accepts -/

def plannedMigration (jobs : List QueuedRow) : MigrationPlan where
  jobs := jobs.map fun job => (job, job.modelList)
  groups := insertAll [] (jobs.map QueuedRow.modelList)

variable {jobs : List QueuedRow} {plan : MigrationPlan}

theorem collectJobs_ok {after : MigrationPlan} :
    collectJobs jobs plan = .ok after ↔
      (∀ job ∈ jobs, job.models.isSome) ∧
        after =
          { jobs := plan.jobs ++ jobs.map fun job => (job, job.modelList)
            groups := insertAll plan.groups (jobs.map QueuedRow.modelList) } := by
  induction jobs generalizing plan with
  | nil =>
      simp only [collectJobs, Except.ok.injEq, List.not_mem_nil, false_implies, implies_true,
        true_and, List.map_nil, List.append_nil, insertAll, List.foldl_nil]
      exact eq_comm
  | cons job later induction =>
      unfold collectJobs
      cases found : job.models with
      | none => simp [found]
      | some models =>
          have own : job.modelList = models := by rw [QueuedRow.modelList, found, Option.getD_some]
          dsimp only
          rw [induction]
          simp [found, own, insertAll]

variable {legacy : List ModelRow}

theorem matchIndex_eq_nil {expected : List ModelRow} :
    matchIndex legacy expected = some [] ↔ legacy.Perm expected := by
  induction legacy generalizing expected with
  | nil => simp [matchIndex, List.nil_perm]
  | cons row later induction =>
      rw [List.cons_perm_iff_perm_erase, matchIndex]
      split
      · next present => simp [present, induction]
      · next absent => simp [absent]

structure MigrationLimits.Covers (limits : MigrationLimits) (jobs : List QueuedRow)
    (legacy : List ModelRow) : Prop where
  valid : limits.valid = true
  jobCount : jobs.length ≤ limits.maxJobs
  rowCount : legacy.length ≤ limits.maxModelRows
  groupCount : (plannedMigration jobs).groupRows ≤ limits.maxGroups
  writes : (plannedMigration jobs).expectedWrites ≤ limits.maxWrites

variable {limits : MigrationLimits}

theorem planCompactMigration_ok :
    planCompactMigration limits jobs legacy = .ok plan ↔
      limits.Covers jobs legacy ∧ (∀ job ∈ jobs, job.models.isSome) ∧
        legacy.Perm (plannedMigration jobs).expected.dedup ∧ plan = plannedMigration jobs := by
  unfold planCompactMigration
  constructor
  · intro accepted
    split at accepted
    · cases accepted
    next valid =>
    split at accepted
    · cases accepted
    next jobCount =>
    split at accepted
    · cases accepted
    next rowCount =>
    split at accepted
    · cases accepted
    next collected =>
    obtain ⟨models, rfl⟩ := collectJobs_ok.mp collected
    split at accepted
    · cases accepted
    next same =>
    split at accepted
    · cases accepted
    next groupCount =>
    split at accepted
    · cases accepted
    next writes =>
    cases accepted
    rw [not_not] at same valid
    exact ⟨⟨valid, by omega, by omega, not_lt.mp groupCount, not_lt.mp writes⟩, models,
      matchIndex_eq_nil.mp same, rfl⟩
  · rintro ⟨covers, valid, same, rfl⟩
    have collected : collectJobs jobs {} = .ok (plannedMigration jobs) :=
      collectJobs_ok.mpr ⟨valid, rfl⟩
    rw [if_neg (not_not.mpr covers.valid), if_neg (not_lt.mpr covers.jobCount),
      if_neg (not_lt.mpr covers.rowCount), collected]
    dsimp only
    rw [matchIndex_eq_nil.mpr same, if_neg (not_not.mpr rfl),
      if_neg (not_lt.mpr covers.groupCount), if_neg (not_lt.mpr covers.writes)]

/-! ## Queued jobs of the tables -/

def JobTables.queuedAt (tables : JobTables) (jobId : String) : Option QueuedRow :=
  (tables.jobs.get? jobId).bind fun job => if job.state = .queued then some job.queuedRow else none

section

variable {tables : JobTables} {jobId : String} {row : QueuedRow}

theorem JobTables.queuedAt_eq_some :
    tables.queuedAt jobId = some row ↔
      ∃ job, tables.jobs.get? jobId = some job ∧ job.state = .queued ∧ job.queuedRow = row := by
  unfold queuedAt
  rw [Option.bind_eq_some_iff]
  refine exists_congr fun job => and_congr_right fun _ => ?_
  split <;> simp_all

theorem JobTables.Keyed.id_of_queuedAt (keyed : tables.Keyed)
    (found : tables.queuedAt jobId = some row) : row.id = jobId := by
  obtain ⟨job, stored, _, rfl⟩ := JobTables.queuedAt_eq_some.mp found
  exact keyed.named jobId job stored

theorem JobTables.Keyed.mem_queuedRows (keyed : tables.Keyed) :
    row ∈ queuedRows tables.jobs ↔ tables.queuedAt row.id = some row := by
  unfold queuedRows
  rw [JobTables.queuedAt_eq_some, List.mem_map]
  constructor
  · rintro ⟨job, member, rfl⟩
    obtain ⟨stored, queued⟩ := List.mem_filter.mp member
    exact ⟨job, keyed.mem_values.mp stored, of_decide_eq_true queued, rfl⟩
  · rintro ⟨job, stored, queued, rfl⟩
    exact ⟨job, List.mem_filter.mpr ⟨keyed.mem_values.mpr stored, decide_eq_true queued⟩, rfl⟩

theorem JobTables.Keyed.map_queuedAt {α : Type} (keyed : tables.Keyed) (jobId : String)
    (entry : QueuedRow → String → α) :
    (tables.queuedAt jobId).map (fun job => entry job jobId) =
      (tables.queuedAt jobId).map fun job => entry job job.id := by
  refine Option.map_congr fun job found => ?_
  rw [keyed.id_of_queuedAt found]

theorem JobTables.Keyed.holds_iff {ρ : Type} [DecidableEq ρ] (keyed : tables.Keyed)
    {owner : ρ → String} {rows : List ρ} {entries : QueuedRow → List ρ}
    (owned : ∀ job, ∀ row ∈ entries job, owner row = job.id) :
    (∀ jobId, Holds owner rows jobId (((tables.queuedAt jobId).map entries).getD [])) ↔
      ∀ row, row ∈ rows ↔ row ∈ (queuedRows tables.jobs).flatMap entries := by
  have whole : ∀ row, row ∈ (queuedRows tables.jobs).flatMap entries ↔
      row ∈ ((tables.queuedAt (owner row)).map entries).getD [] := by
    intro row
    rw [List.mem_flatMap]
    constructor
    · rintro ⟨job, queued, member⟩
      rw [owned job row member, keyed.mem_queuedRows.mp queued]
      exact member
    · intro member
      cases found : tables.queuedAt (owner row) with
      | none =>
          rw [found] at member
          cases member
      | some job =>
          rw [found] at member
          refine ⟨job, keyed.mem_queuedRows.mpr ?_, member⟩
          rwa [keyed.id_of_queuedAt found]
  constructor
  · intro holds row
    rw [whole row, holds (owner row) row rfl]
  · rintro exact jobId row rfl
    rw [exact row, whole row]

/-! ### What indexed tables hold -/

variable {models : List String}

theorem JobRow.queuedRow_models {job : JobRow} :
    job.queuedRow.models = some models ↔ job.queueModels = some models ∧ ModelSet models := by
  rw [QueuedRow.models_eq_some]
  refine and_congr_left fun _ => ?_
  show job.queueModels.map JsonStrings.stringify = some (JsonStrings.stringify models) ↔ _
  rw [Option.map_eq_some_iff]
  constructor
  · rintro ⟨others, found, same⟩
    rw [found, JsonStrings.stringify_injective same]
  · intro found
    exact ⟨models, found, rfl⟩

theorem JobTables.Keyed.recorded_iff (keyed : tables.Keyed) :
    (∀ jobId job, tables.jobs.get? jobId = some job → job.state = .queued →
        ∃ models, job.queueModels = some models ∧ ModelSet models) ↔
      ∀ job ∈ queuedRows tables.jobs, job.models.isSome := by
  constructor
  · intro recorded row member
    obtain ⟨job, stored, queued, rfl⟩ :=
      JobTables.queuedAt_eq_some.mp (keyed.mem_queuedRows.mp member)
    obtain ⟨models, found, valid⟩ := recorded _ job stored queued
    rw [JobRow.queuedRow_models.mpr ⟨found, valid⟩, Option.isSome_some]
  · intro accepted jobId job stored queued
    have named := keyed.named jobId job stored
    have member : job.queuedRow ∈ queuedRows tables.jobs := by
      refine keyed.mem_queuedRows.mpr (JobTables.queuedAt_eq_some.mpr ⟨job, ?_, queued, rfl⟩)
      show tables.jobs.get? job.id = some job
      rwa [named]
    exact ⟨_, JobRow.queuedRow_models.mp (QueuedRow.models_eq (accepted _ member))⟩

theorem JobTables.Keyed.listedKey_eq (keyed : tables.Keyed)
    (accepted : ∀ job ∈ queuedRows tables.jobs, job.models.isSome) (jobId : String) :
    (tables.jobs.get? jobId).bind JobRow.listedKey =
      (tables.queuedAt jobId).map fun job => job.key job.modelList := by
  cases found : tables.jobs.get? jobId with
  | none => simp [JobTables.queuedAt, found]
  | some job =>
      by_cases queued : job.state = .queued
      · have listed : tables.queuedAt jobId = some job.queuedRow :=
          JobTables.queuedAt_eq_some.mpr ⟨job, found, queued, rfl⟩
        have member : job.queuedRow ∈ queuedRows tables.jobs := by
          refine keyed.mem_queuedRows.mpr ?_
          rw [keyed.id_of_queuedAt listed, listed]
        have recorded := JobRow.queuedRow_models.mp (QueuedRow.models_eq (accepted _ member))
        rw [listed, Option.bind_some, Option.map_some, JobRow.listedKey, if_pos queued,
          JobRow.queueKey, recorded.1]
        rfl
      · simp [JobTables.queuedAt, found, JobRow.listedKey, queued]

variable {rows : List ModelRow}

theorem JobTables.Keyed.lists_legacy_iff (keyed : tables.Keyed)
    (accepted : ∀ job ∈ queuedRows tables.jobs, job.models.isSome) (jobId : String) :
    QueueIndex.Lists jobId ((tables.jobs.get? jobId).bind JobRow.listedKey) (.legacy rows) ↔
      Holds ModelRow.jobId rows jobId
        (((tables.queuedAt jobId).map QueuedRow.modelRows).getD []) := by
  have entries := keyed.map_queuedAt jobId fun job owner => (job.key job.modelList).modelRows owner
  rw [keyed.listedKey_eq accepted, QueueIndex.Lists, Option.map_map]
  exact iff_of_eq (congrArg (fun rows' => Holds ModelRow.jobId rows jobId (rows'.getD [])) entries)

theorem JobTables.indexed_legacy_iff (keyed : tables.Keyed) (queue : tables.queue = .legacy rows) :
    tables.Indexed ModelSet ↔
      (∀ job ∈ queuedRows tables.jobs, job.models.isSome) ∧
        ∀ row, row ∈ rows ↔ row ∈ (queuedRows tables.jobs).flatMap QueuedRow.modelRows := by
  have exact_iff := @JobTables.Keyed.holds_iff tables ModelRow _ keyed ModelRow.jobId rows
    QueuedRow.modelRows fun job row member => QueueKey.jobId_of_mem_modelRows member
  constructor
  · intro indexed
    have accepted := keyed.recorded_iff.mp indexed.recorded
    refine ⟨accepted, exact_iff.mp fun jobId => ?_⟩
    have listed := indexed.listed jobId
    rw [queue] at listed
    exact (keyed.lists_legacy_iff accepted jobId).mp listed
  · rintro ⟨accepted, exact⟩
    refine ⟨keyed, keyed.recorded_iff.mpr accepted, fun jobId => ?_, ?_⟩
    · rw [queue]
      exact (keyed.lists_legacy_iff accepted jobId).mpr (exact_iff.mpr exact jobId)
    · rw [queue]
      trivial

/-- The row of `compact_queue` that a job implies. -/
def QueuedRow.queueRow (job : QueuedRow) : QueueRow := (job.key job.modelList).queueRow job.id

variable {groups : List GroupRow}

theorem JobTables.Keyed.lists_compact_iff (keyed : tables.Keyed)
    (accepted : ∀ job ∈ queuedRows tables.jobs, job.models.isSome) {rows : List QueueRow}
    (jobId : String) :
    QueueIndex.Lists jobId ((tables.jobs.get? jobId).bind JobRow.listedKey)
        (.compact rows groups) ↔
      Holds QueueRow.jobId rows jobId
          (((tables.queuedAt jobId).map fun job => [job.queueRow]).getD []) ∧
        ∀ job ∈ tables.queuedAt jobId, ∀ model ∈ job.modelList,
          (⟨model, job.modelList⟩ : GroupRow) ∈ groups := by
  have entries := keyed.map_queuedAt jobId fun job owner => [(job.key job.modelList).queueRow owner]
  rw [keyed.listedKey_eq accepted, QueueIndex.Lists, Option.map_map]
  refine and_congr (iff_of_eq (congrArg
    (fun rows' => Holds QueueRow.jobId rows jobId (rows'.getD [])) entries)) ?_
  simp [QueueKey.groupRows, QueuedRow.key]

theorem JobTables.indexed_compact_iff (keyed : tables.Keyed) {rows : List QueueRow}
    {groups : List GroupRow} (queue : tables.queue = .compact rows groups) :
    tables.Indexed ModelSet ↔
      (∀ job ∈ queuedRows tables.jobs, job.models.isSome) ∧
        (∀ row, row ∈ rows ↔ row ∈ (queuedRows tables.jobs).map QueuedRow.queueRow) ∧
        (∀ job ∈ queuedRows tables.jobs, ∀ model ∈ job.modelList,
          (⟨model, job.modelList⟩ : GroupRow) ∈ groups) ∧
        ∀ group ∈ groups, group.model ∈ group.modelSet := by
  have exact_iff := @JobTables.Keyed.holds_iff tables QueueRow _ keyed QueueRow.jobId rows
    (fun job => [job.queueRow]) fun job row member => by rw [List.mem_singleton.mp member]; rfl
  rw [← List.map_eq_flatMap] at exact_iff
  constructor
  · intro indexed
    have accepted := keyed.recorded_iff.mp indexed.recorded
    have listed := indexed.listed
    rw [queue] at listed
    replace listed := fun jobId => (keyed.lists_compact_iff accepted jobId).mp (listed jobId)
    refine ⟨accepted, exact_iff.mp fun jobId => (listed jobId).1, ?_, ?_⟩
    · intro job member
      exact (listed job.id).2 job (keyed.mem_queuedRows.mp member)
    · have grouped := indexed.grouped
      rwa [queue] at grouped
  · rintro ⟨accepted, exact, grouped, named⟩
    refine ⟨keyed, keyed.recorded_iff.mpr accepted, fun jobId => ?_, by rwa [queue]⟩
    rw [queue]
    refine (keyed.lists_compact_iff accepted jobId).mpr ⟨exact_iff.mpr exact jobId, fun job found => ?_⟩
    refine grouped job (keyed.mem_queuedRows.mpr ?_)
    rwa [keyed.id_of_queuedAt found]

/-! ## The cutover -/

theorem expected_plannedMigration (jobs : List QueuedRow) :
    (plannedMigration jobs).expected = jobs.flatMap QueuedRow.modelRows := by
  simp only [MigrationPlan.expected, plannedMigration, List.flatMap_map]
  rfl

theorem planCompactMigration_accepts (stored : legacy.Nodup) :
    (∃ plan, planCompactMigration limits jobs legacy = .ok plan) ↔
      limits.Covers jobs legacy ∧
        (∀ job ∈ jobs, ∃ models, job.Records models ∧ ModelSet models) ∧
        ∀ row, row ∈ legacy ↔
          ∃ job ∈ jobs, ∃ models, job.Records models ∧ row ∈ (job.key models).modelRows job.id := by
  have accepted_iff : (∀ job ∈ jobs, job.models.isSome) ↔
      ∀ job ∈ jobs, ∃ models, job.Records models ∧ ModelSet models := by
    refine forall₂_congr fun job _ => ?_
    rw [Option.isSome_iff_exists]
    exact exists_congr fun models => QueuedRow.models_eq_some
  have implied (accepted : ∀ job ∈ jobs, job.models.isSome) (row : ModelRow) :
      row ∈ (plannedMigration jobs).expected.dedup ↔
        ∃ job ∈ jobs, ∃ models, job.Records models ∧ row ∈ (job.key models).modelRows job.id := by
    rw [List.mem_dedup, expected_plannedMigration, List.mem_flatMap]
    refine exists_congr fun job => and_congr_right fun member => ?_
    have records := (QueuedRow.models_eq_some.mp (QueuedRow.models_eq (accepted job member))).1
    constructor
    · exact fun own => ⟨_, records, own⟩
    · rintro ⟨models, also, own⟩
      rwa [also.unique records] at own
  constructor
  · rintro ⟨plan, planned⟩
    obtain ⟨covers, accepted, same, _⟩ := planCompactMigration_ok.mp planned
    exact ⟨covers, accepted_iff.mp accepted, fun row => same.mem_iff.trans (implied accepted row)⟩
  · rintro ⟨covers, recorded, exact⟩
    have accepted := accepted_iff.mpr recorded
    refine ⟨_, planCompactMigration_ok.mpr ⟨covers, accepted, ?_, rfl⟩⟩
    refine (List.perm_ext_iff_of_nodup stored (List.nodup_dedup _)).mpr fun row => ?_
    rw [exact row, implied accepted row]

/-- What the cutover starts from and what it builds are both indexed. -/
theorem planCompactMigration_indexed (keyed : tables.Keyed) (queue : tables.queue = .legacy rows)
    (planned : planCompactMigration limits (queuedRows tables.jobs) rows.dedup = .ok plan) :
    tables.Indexed ModelSet ∧
      ({ tables with queue := buildCompactMigration plan } : JobTables).Indexed ModelSet := by
  obtain ⟨_, accepted, same, rfl⟩ := planCompactMigration_ok.mp planned
  refine ⟨(JobTables.indexed_legacy_iff keyed queue).mpr ⟨accepted, fun row => ?_⟩, ?_⟩
  · rw [← List.mem_dedup, same.mem_iff, List.mem_dedup, expected_plannedMigration]
  set built : JobTables :=
    { tables with queue := buildCompactMigration (plannedMigration (queuedRows tables.jobs)) }
  refine (@JobTables.indexed_compact_iff built ⟨keyed.nodup, keyed.named⟩ _ _ rfl).mpr
    ⟨accepted, fun row => ?_, ?_, ?_⟩
  · simp only [plannedMigration, List.map_map]
    rfl
  · intro job member model named
    refine List.mem_flatMap.mpr ⟨job.modelList, ?_, List.mem_map.mpr ⟨model, named, rfl⟩⟩
    exact mem_insertAll.mpr (.inr (List.mem_map.mpr ⟨job, member, rfl⟩))
  · intro group member
    obtain ⟨models, _, own⟩ := List.mem_flatMap.mp member
    obtain ⟨model, named, rfl⟩ := List.mem_map.mp own
    exact named

/-! ## The rollback -/

theorem rollbackModels_ok {later : List String}
    (grouped : ∀ model ∈ later, (⟨model, models⟩ : GroupRow) ∈ groups)
    (fits : rows.length + later.length ≤ limits.maxModelRows) :
    rollbackModels limits groups job models later rows =
      .ok (rows ++ later.map fun model => ⟨job.id, model, job.priority, job.createdAt⟩) := by
  induction later generalizing rows with
  | nil => simp [rollbackModels]
  | cons model later induction =>
      rw [List.length_cons] at fits
      unfold rollbackModels
      rw [if_neg (not_not.mpr (grouped model List.mem_cons_self)), if_neg (by omega),
        induction (fun other member => grouped other (List.mem_cons_of_mem _ member))
          (by rw [List.length_append, List.length_singleton]; omega)]
      simp

theorem rollbackJobs_ok {limits : MigrationLimits} {groups : List GroupRow}
    {jobs : List QueuedRow} {plan : RollbackPlan} (accepted : ∀ job ∈ jobs, job.models.isSome)
    (queued : plan.remaining.Perm (jobs.map QueuedRow.queueRow))
    (grouped : ∀ job ∈ jobs, ∀ model ∈ job.modelList, (⟨model, job.modelList⟩ : GroupRow) ∈ groups)
    (fits : plan.rows.length + (jobs.flatMap QueuedRow.modelRows).length ≤ limits.maxModelRows) :
    rollbackJobs limits groups jobs plan =
      .ok { rows := plan.rows ++ jobs.flatMap QueuedRow.modelRows } := by
  induction jobs generalizing plan with
  | nil =>
      rw [List.map_nil, List.perm_nil] at queued
      simp only [rollbackJobs, List.flatMap_nil, List.append_nil, ← queued]
  | cons job later induction =>
      rw [List.flatMap_cons, List.length_append] at fits
      have length : job.modelRows.length = job.modelList.length := List.length_map _
      obtain ⟨present, remaining⟩ := List.cons_perm_iff_perm_erase.mp queued.symm
      have row : (job.key job.modelList).queueRow job.id ∈ plan.remaining := present
      unfold rollbackJobs
      rw [QueuedRow.models_eq (accepted job List.mem_cons_self)]
      dsimp only
      rw [if_neg (not_not.mpr row), rollbackModels_ok (grouped job List.mem_cons_self) (by omega)]
      dsimp only
      have own : (job.modelList.map fun model =>
          (⟨job.id, model, job.priority, job.createdAt⟩ : ModelRow)) = job.modelRows := rfl
      rw [own, induction (fun other member => accepted other (List.mem_cons_of_mem _ member))
        remaining.symm (fun other member => grouped other (List.mem_cons_of_mem _ member))
        (by rw [List.length_append]; omega)]
      simp

structure MigrationLimits.Permits (limits : MigrationLimits) (jobs : List QueuedRow)
    (queue : List QueueRow) (groups : List GroupRow) (legacy : List ModelRow) : Prop where
  valid : limits.valid = true
  jobCount : jobs.length ≤ limits.maxJobs
  queueCount : queue.length ≤ limits.maxJobs
  groupCount : groups.length ≤ limits.maxGroups
  rowCount : legacy.length ≤ limits.maxModelRows
  rebuilt : (jobs.flatMap QueuedRow.modelRows).length ≤ limits.maxModelRows
  writes : legacy.length + (jobs.flatMap QueuedRow.modelRows).length ≤ limits.maxWrites

theorem JobTables.Keyed.pairwise_queuedRows (keyed : tables.Keyed) :
    (queuedRows tables.jobs).Pairwise fun left right => left.id ≠ right.id :=
  List.pairwise_map.mpr (keyed.pairwise_id.sublist List.filter_sublist)

theorem planCompactRollback_ok (indexed : tables.Indexed ModelSet)
    {rows : List QueueRow} (queue : tables.queue = .compact rows groups)
    (permits : limits.Permits (queuedRows tables.jobs) rows.dedup groups.dedup legacy) :
    planCompactRollback limits (queuedRows tables.jobs) rows.dedup groups.dedup legacy =
      .ok ((queuedRows tables.jobs).flatMap QueuedRow.modelRows) := by
  have keyed := indexed.keyed
  obtain ⟨accepted, exact, grouped, _⟩ := (JobTables.indexed_compact_iff keyed queue).mp indexed
  have distinct : ((queuedRows tables.jobs).map QueuedRow.queueRow).Nodup :=
    List.pairwise_map.mpr (keyed.pairwise_queuedRows.imp fun different same =>
      different (congrArg QueueRow.jobId same))
  have queued : rows.dedup.dedup.Perm ((queuedRows tables.jobs).map QueuedRow.queueRow) := by
    refine (List.perm_ext_iff_of_nodup (List.nodup_dedup _) distinct).mpr fun row => ?_
    rw [List.mem_dedup, List.mem_dedup, exact row]
  have planned := @rollbackJobs_ok limits groups.dedup (queuedRows tables.jobs)
    { remaining := rows.dedup.dedup } accepted queued
    (fun job member model named => List.mem_dedup.mpr (grouped job member model named))
    (by simpa using permits.rebuilt)
  have within : ¬ (limits.maxJobs < (queuedRows tables.jobs).length ∨
      limits.maxJobs < rows.dedup.length ∨ limits.maxGroups < groups.dedup.length ∨
        limits.maxModelRows < legacy.length) := by
    have := permits.jobCount
    have := permits.queueCount
    have := permits.groupCount
    have := permits.rowCount
    omega
  unfold planCompactRollback
  rw [if_neg (not_not.mpr permits.valid), if_neg within, planned]
  simpa using permits.writes

theorem JobTables.Indexed.nodup_modelRows (indexed : tables.Indexed ModelSet) :
    ((queuedRows tables.jobs).flatMap QueuedRow.modelRows).Nodup := by
  have keyed := indexed.keyed
  have accepted := keyed.recorded_iff.mp indexed.recorded
  refine List.nodup_flatMap.mpr ⟨?_, ?_⟩
  · intro job member
    obtain ⟨_, _, _, distinct⟩ :=
      QueuedRow.models_eq_some.mp (QueuedRow.models_eq (accepted job member))
    exact distinct.map fun left right same => congrArg ModelRow.model same
  · refine keyed.pairwise_queuedRows.imp fun different row here there => different ?_
    rw [← QueueKey.jobId_of_mem_modelRows here, ← QueueKey.jobId_of_mem_modelRows there]

theorem JobTables.Indexed.mem_modelRows (indexed : tables.Indexed ModelSet) {row : ModelRow} :
    row ∈ (queuedRows tables.jobs).flatMap QueuedRow.modelRows ↔
      ∃ job models, tables.jobs.get? row.jobId = some job ∧ job.state = .queued ∧
        job.queueModels = some models ∧ row.model ∈ models ∧ row.priority = job.priority ∧
        row.createdAt = job.createdAt := by
  have keyed := indexed.keyed
  have accepted := keyed.recorded_iff.mp indexed.recorded
  rw [List.mem_flatMap]
  constructor
  · rintro ⟨queuedJob, member, own⟩
    obtain ⟨model, named, rfl⟩ := List.mem_map.mp own
    obtain ⟨job, stored, queued, rfl⟩ :=
      JobTables.queuedAt_eq_some.mp (keyed.mem_queuedRows.mp member)
    have recorded := JobRow.queuedRow_models.mp (QueuedRow.models_eq (accepted _ member))
    exact ⟨job, _, stored, queued, recorded.1, named, rfl, rfl⟩
  · rintro ⟨job, models, stored, queued, recorded, named, priority, created⟩
    have found := JobTables.queuedAt_eq_some.mpr ⟨job, stored, queued, rfl⟩
    have own := keyed.id_of_queuedAt found
    have member : job.queuedRow ∈ queuedRows tables.jobs := by
      rw [keyed.mem_queuedRows, own, found]
    have list : job.queuedRow.modelList = models := by
      have same := (JobRow.queuedRow_models.mp (QueuedRow.models_eq (accepted _ member))).1
      exact Option.some.inj (same.symm.trans recorded)
    refine ⟨job.queuedRow, member, List.mem_map.mpr ⟨row.model, list ▸ named, ?_⟩⟩
    cases row
    simp_all [QueuedRow.key, JobRow.queuedRow]

end

/-! ## There and back -/

variable {store migrated : QueueStore}

theorem QueueStore.cutover_ok (switched : store.cutover limits = (none, migrated)) :
    ∃ rows plan, store.tables.queue = .legacy rows ∧
      planCompactMigration limits (queuedRows store.tables.jobs) rows.dedup = .ok plan ∧
      migrated =
        { tables := { store.tables with queue := buildCompactMigration plan }
          retired := rows.dedup } := by
  unfold cutover at switched
  split at switched
  · cases switched
  · next rows queue =>
    split at switched
    · cases switched
    · next plan planned =>
      cases switched
      exact ⟨rows, plan, queue, planned, rfl⟩

variable {after : QueueStore} {refusal : MigrationRefusal}

/-- A refused switch changes no table. -/
theorem QueueStore.cutover_refused (refused : store.cutover limits = (some refusal, after)) :
    after = store := by
  unfold cutover at refused
  split at refused
  · cases refused
    rfl
  · split at refused
    · cases refused
      rfl
    · cases refused

theorem QueueStore.rollback_refused (refused : store.rollback limits = (some refusal, after)) :
    after = store := by
  unfold rollback at refused
  split at refused
  · cases refused
    rfl
  · split at refused
    · cases refused
      rfl
    · cases refused

theorem QueueStore.rollback_ok {back : MigrationLimits}
    {after : JobTables} {retired : List ModelRow} (keyed : store.tables.Keyed)
    (switched : store.cutover limits = (none, migrated))
    (reached : QueueEdit.Reaches ModelSet migrated.tables after)
    (permits : ∀ rows groups, after.queue = .compact rows groups →
      back.Permits (queuedRows after.jobs) rows.dedup groups.dedup retired) :
    ∃ rows,
      ({ tables := after, retired := retired } : QueueStore).rollback back =
          (none, { tables := { after with queue := .legacy rows } }) ∧
        rows.Nodup ∧
        ∀ row, row ∈ rows ↔
          ∃ job models, after.jobs.get? row.jobId = some job ∧ job.state = .queued ∧
            job.queueModels = some models ∧ row.model ∈ models ∧ row.priority = job.priority ∧
            row.createdAt = job.createdAt := by
  obtain ⟨legacy, plan, queue, planned, rfl⟩ := QueueStore.cutover_ok switched
  have built := (planCompactMigration_indexed keyed queue planned).2
  have indexed := QueueEdit.Reaches.indexed built reached
  have format := reached.isCompact
  cases found : after.queue with
  | legacy rows =>
      rw [found] at format
      cases format
  | compact rows groups =>
      refine ⟨_, ?_, indexed.nodup_modelRows, fun row => indexed.mem_modelRows⟩
      unfold QueueStore.rollback
      dsimp only
      rw [found]
      dsimp only
      rw [planCompactRollback_ok indexed found (permits rows groups found)]
      rfl

/-- The planner of the cutover accepts exactly the states whose queued jobs record model sets
that the index spells out; whatever edits follow, the rollback restores that index; and a
refusal of either changes nothing. -/
theorem queue_migration_round_trip {limits back : MigrationLimits} {jobs : List QueuedRow}
    {legacy : List ModelRow} (stored : legacy.Nodup) :
    ((∃ plan, planCompactMigration limits jobs legacy = .ok plan) ↔
      limits.Covers jobs legacy ∧
        (∀ job ∈ jobs, ∃ models, job.Records models ∧ ModelSet models) ∧
        ∀ row, row ∈ legacy ↔
          ∃ job ∈ jobs, ∃ models, job.Records models ∧
            row ∈ (job.key models).modelRows job.id) ∧
      (∀ (store migrated : QueueStore) (after : JobTables) (retired : List ModelRow),
        store.tables.Keyed → store.cutover limits = (none, migrated) →
        QueueEdit.Reaches ModelSet migrated.tables after →
        (∀ rows groups, after.queue = .compact rows groups →
          back.Permits (queuedRows after.jobs) rows.dedup groups.dedup retired) →
        ∃ rows,
          ({ tables := after, retired := retired } : QueueStore).rollback back =
              (none, { tables := { after with queue := .legacy rows } }) ∧
            rows.Nodup ∧
            ∀ row, row ∈ rows ↔
              ∃ job models, after.jobs.get? row.jobId = some job ∧ job.state = .queued ∧
                job.queueModels = some models ∧ row.model ∈ models ∧
                row.priority = job.priority ∧ row.createdAt = job.createdAt) ∧
      ∀ (store after : QueueStore) (refusal : MigrationRefusal),
        store.cutover limits = (some refusal, after) ∨
            store.rollback back = (some refusal, after) →
          after = store := by
  refine ⟨planCompactMigration_accepts stored, ?_, ?_⟩
  · intro store migrated after retired keyed switched reached permits
    exact QueueStore.rollback_ok keyed switched reached permits
  · rintro store after refusal (refused | refused)
    · exact QueueStore.cutover_refused refused
    · exact QueueStore.rollback_refused refused

def migrationLimits : MigrationLimits := ⟨10, 10, 10, 20⟩

def queuedJob (id : String) (models : List String) : JobRow where
  id := id
  idempotencyKey := id
  requestDigest := ""
  queueModels := some models

def queuedStore : QueueStore where
  tables :=
    { jobs := [("a", queuedJob "a" ["m", "n"])]
      queue := .legacy [⟨"a", "m", 1, 0⟩, ⟨"a", "n", 1, 0⟩] }

def migratedStore : QueueStore where
  tables :=
    { jobs := [("a", queuedJob "a" ["m", "n"])]
      queue := .compact [⟨["m", "n"], 1, 0, "a"⟩] [⟨"m", ["m", "n"]⟩, ⟨"n", ["m", "n"]⟩] }
  retired := [⟨"a", "m", 1, 0⟩, ⟨"a", "n", 1, 0⟩]

/-- A second job came after the cutover. -/
def editedTables : JobTables where
  jobs := [("a", queuedJob "a" ["m", "n"]), ("b", queuedJob "b" ["n"])]
  queue := .compact [⟨["m", "n"], 1, 0, "a"⟩, ⟨["n"], 1, 0, "b"⟩]
    [⟨"m", ["m", "n"]⟩, ⟨"n", ["m", "n"]⟩, ⟨"n", ["n"]⟩]

theorem reaches_editedTables : QueueEdit.Reaches ModelSet migratedStore.tables editedTables := by
  refine .edit (.index (queuedJob "b" ["n"]) ["n"]) .start ⟨by decide, .inl ?_⟩ (by decide +kernel)
  intro row found
  have absent : migratedStore.tables.jobs.get? "b" = none := by decide +kernel
  cases absent.symm.trans found

theorem permits_editedTables (rows : List QueueRow) (groups : List GroupRow)
    (queue : editedTables.queue = .compact rows groups) :
    migrationLimits.Permits (queuedRows editedTables.jobs) rows.dedup groups.dedup
      migratedStore.retired := by
  cases queue
  exact ⟨by decide +kernel, by decide +kernel, by decide +kernel, by decide +kernel,
    by decide +kernel, by decide +kernel, by decide +kernel⟩

/-- The job that came after the cutover is in the rebuilt index. -/
theorem queue_migration_round_trip_edited :
    ∃ rows,
      ({ tables := editedTables, retired := migratedStore.retired } : QueueStore).rollback
          migrationLimits = (none, { tables := { editedTables with queue := .legacy rows } }) ∧
        rows.Nodup ∧ (⟨"b", "n", 1, 0⟩ : ModelRow) ∈ rows := by
  have holds := @queue_migration_round_trip migrationLimits migrationLimits [] []
    List.nodup_nil
  obtain ⟨rows, rolled, nodup, exact⟩ := holds.2.1 queuedStore migratedStore editedTables
    migratedStore.retired (.of_entries (by decide) (by decide +kernel)) (by decide +kernel)
    reaches_editedTables permits_editedTables
  refine ⟨rows, rolled, nodup, (exact _).mpr ⟨queuedJob "b" ["n"], ["n"], ?_⟩⟩
  decide +kernel

/-- An empty list is canonical and implies no rows, and the planner refuses it. -/
theorem empty_model_set_refused :
    let job : QueuedRow := ⟨"a", 1, 0, some "[]"⟩
    migrationLimits.Covers [job] [] ∧ job.Records [] ∧ ([] : List String).Nodup ∧
      (∀ row, row ∈ ([] : List ModelRow) ↔ row ∈ (job.key []).modelRows job.id) ∧
      planCompactMigration migrationLimits [job] [] = .error .invalidModelSet := by
  refine ⟨⟨?_, ?_, ?_, ?_, ?_⟩, ?_, List.nodup_nil, fun row => Iff.rfl, ?_⟩
  · decide
  · decide
  · decide
  · decide +kernel
  · decide +kernel
  · exact congrArg some (by decide +kernel)
  · decide +kernel

end CityPods.Dispatch
