import CityPods.Dispatch.CompactMigration
import CityPods.Foundation.ByteOrder
import CityPods.Foundation.Keyset
import Mathlib.Data.Prod.Lex

/-! # Reads of the compact queue

The claim reads the first jobs of a model from either format of the queue index.
After the same edits both formats return the same jobs in the same order.
-/

namespace CityPods.Dispatch

open Foundation Keyset

/-! ## The two readers -/

/-- The comparator of the merge: identifiers by their bytes, as the index orders them. -/
def compareCandidates (left right : Candidate) : ℚ :=
  if left.position.priority ≠ right.position.priority then
    left.position.priority - right.position.priority
  else if left.position.createdAt ≠ right.position.createdAt then
    left.position.createdAt - right.position.createdAt
  else
    ByteOrder.compareBytes (ByteOrder.encode left.position.jobId.toList)
      (ByteOrder.encode right.position.jobId.toList)

def mergeCandidates : Nat → List Candidate → List Candidate → List Candidate
  | 0, _, _ => []
  | _ + 1, [], [] => []
  | limit + 1, left :: candidates, [] => left :: mergeCandidates limit candidates []
  | limit + 1, [], right :: next => right :: mergeCandidates limit [] next
  | limit + 1, left :: candidates, right :: next =>
      if compareCandidates left right ≤ 0 then
        left :: mergeCandidates limit candidates (right :: next)
      else right :: mergeCandidates limit (left :: candidates) next

def readCompactCandidates (jobs : Dict String JobRow) (model : String) (limit : Nat)
    (after : Option QueuePosition) (rows : List QueueRow) (groups : List GroupRow) :
    List Candidate :=
  (groups.dedup.filter fun group => decide (group.model = model)).foldl
    (fun candidates group =>
      mergeCandidates limit candidates
        (readScan jobs after limit
          ((rows.dedup.filter fun row => decide (row.modelSet = group.modelSet)).map fun row =>
            ⟨row.priority, row.createdAt, row.jobId⟩)))
    []

def readLegacyCandidates (jobs : Dict String JobRow) (model : String) (limit : Nat)
    (after : Option QueuePosition) (rows : List ModelRow) : List Candidate :=
  readScan jobs after limit
    ((rows.dedup.filter fun row => decide (row.model = model)).map fun row =>
      ⟨row.priority, row.createdAt, row.jobId⟩)

def JobTables.readModel (model : String) (after : Option QueuePosition) (limit : Nat)
    (tables : JobTables) : List Candidate :=
  match tables.queue with
  | .compact rows groups => readCompactCandidates tables.jobs model limit after rows groups
  | .legacy rows => readLegacyCandidates tables.jobs model limit after rows

/-! ### The order of positions -/

def QueuePosition.place (position : QueuePosition) : ℕ ×ₗ ℚ ×ₗ String :=
  toLex (position.priority, toLex (position.createdAt, position.jobId))

def Candidate.place (candidate : Candidate) : ℕ ×ₗ ℚ ×ₗ String := candidate.position.place

theorem QueuePosition.precedes_iff {left right : QueuePosition} :
    left.precedes right = true ↔ left.place < right.place := by
  unfold precedes place
  rw [Prod.Lex.toLex_lt_toLex, Prod.Lex.toLex_lt_toLex, decide_eq_true_iff]

theorem Candidate.notAfter_eq : Candidate.notAfter = Keyset.notAfter Candidate.place := by
  funext left right
  have order := @QueuePosition.precedes_iff right.position left.position
  unfold Candidate.notAfter Keyset.notAfter Candidate.place
  rw [Bool.eq_iff_iff, Bool.not_eq_true', Bool.eq_false_iff, Ne, order, not_lt,
    decide_eq_true_iff]

theorem compareCandidates_nonpos {left right : Candidate} :
    compareCandidates left right ≤ 0 ↔ left.notAfter right = true := by
  have ids := @ByteOrder.compareBytes_nonpos_iff left.position.jobId right.position.jobId
  rw [Candidate.notAfter_eq, Keyset.notAfter, decide_eq_true_iff, Candidate.place,
    Candidate.place, QueuePosition.place, QueuePosition.place, Prod.Lex.toLex_le_toLex,
    Prod.Lex.toLex_le_toLex]
  unfold compareCandidates
  split
  · next priority =>
    have order : (left.position.priority : ℚ) - right.position.priority ≤ 0 ↔
        left.position.priority ≤ right.position.priority := by
      rw [sub_nonpos, Nat.cast_le]
    rw [order]
    simp only [priority, false_and, or_false]
    exact ⟨fun le => lt_of_le_of_ne le priority, le_of_lt⟩
  next priority =>
  rw [not_not] at priority
  split
  · next created =>
    simp only [priority, created, lt_irrefl, true_and, false_or, false_and, or_false, sub_nonpos]
    exact ⟨fun le => lt_of_le_of_ne le created, le_of_lt⟩
  · next created =>
    rw [not_not] at created
    simp only [priority, created, lt_irrefl, true_and, false_or, Int.cast_nonpos]
    exact ids

theorem mergeCandidates_eq (limit : Nat) (candidates next : List Candidate) :
    mergeCandidates limit candidates next =
      (candidates.merge next Candidate.notAfter).take limit := by
  fun_induction mergeCandidates limit candidates next with
  | case1 => simp
  | case2 => simp
  | case3 limit left candidates induction => simpa using induction
  | case4 limit right next induction => simpa using induction
  | case5 limit left candidates right next before induction =>
      rw [List.cons_merge_cons, if_pos (compareCandidates_nonpos.mp before), induction,
        List.take_succ_cons]
  | case6 limit left candidates right next after induction =>
      rw [List.cons_merge_cons, if_neg fun before => after (compareCandidates_nonpos.mpr before),
        induction, List.take_succ_cons]

theorem JobTables.readModel_eq (tables : JobTables) (model : String)
    (after : Option QueuePosition) (limit : Nat) :
    tables.readModel model after limit =
      tables.queue.readCandidates tables.jobs model after limit := by
  unfold readModel QueueIndex.readCandidates
  cases tables.queue with
  | legacy rows =>
      simp only [QueueIndex.scans, List.foldl_cons, List.foldl_nil, readLegacyCandidates]
      rw [readScan, List.nil_merge, List.take_take, Nat.min_self]
  | compact rows groups =>
      simp only [QueueIndex.scans, List.foldl_map, readCompactCandidates, mergeCandidates_eq]

/-! ## What a read returns -/

/-- The position at which a key puts a job in the order of each of its models. -/
def QueueKey.position (key : QueueKey) (jobId : String) : QueuePosition :=
  ⟨key.priority, key.createdAt, jobId⟩

variable {queue : QueueIndex} {keys : String → Option QueueKey} {position : QueuePosition}

theorem QueueIndex.mem_scans
    (listed : ∀ jobId, queue.Lists jobId (keys jobId)) (grouped : queue.Grouped) {model : String} :
    position ∈ (queue.scans model).flatten ↔
      ∃ key ∈ keys position.jobId, model ∈ key.models ∧ position = key.position position.jobId := by
  cases queue with
  | legacy rows =>
      simp only [QueueIndex.scans, List.flatten_cons, List.flatten_nil, List.append_nil,
        List.mem_map, List.mem_filter, List.mem_dedup, decide_eq_true_iff]
      constructor
      · rintro ⟨row, ⟨stored, rfl⟩, rfl⟩
        have entry := (listed row.jobId row rfl).mp stored
        cases found : keys row.jobId with
        | none =>
            rw [found] at entry
            cases entry
        | some key =>
            rw [found] at entry
            obtain ⟨model, named, own⟩ := List.mem_map.mp entry
            refine ⟨key, rfl, ?_, ?_⟩
            · rw [← own]
              exact named
            · rw [← own]
              rfl
      · rintro ⟨key, found, named, same⟩
        rw [Option.mem_def] at found
        refine ⟨⟨position.jobId, model, key.priority, key.createdAt⟩, ⟨?_, rfl⟩, same.symm⟩
        refine (listed position.jobId _ rfl).mpr ?_
        rw [found]
        exact List.mem_map.mpr ⟨model, named, rfl⟩
  | compact rows groups =>
      simp only [QueueIndex.scans, List.mem_flatten, List.mem_map, List.mem_filter,
        List.mem_dedup, decide_eq_true_iff]
      constructor
      · rintro ⟨_, ⟨group, ⟨inGroups, rfl⟩, rfl⟩, inScan⟩
        obtain ⟨row, member, rfl⟩ := List.mem_map.mp inScan
        obtain ⟨stored, set⟩ := List.mem_filter.mp member
        have entry := ((listed row.jobId).1 row rfl).mp (List.mem_dedup.mp stored)
        cases found : keys row.jobId with
        | none =>
            rw [found] at entry
            cases entry
        | some key =>
            rw [found] at entry
            have own : row = key.queueRow row.jobId := List.mem_singleton.mp entry
            refine ⟨key, rfl, ?_, ?_⟩
            · have models : key.models = group.modelSet :=
                (congrArg QueueRow.modelSet own).symm.trans (of_decide_eq_true set)
              rw [models]
              exact grouped group inGroups
            · rw [own]
              rfl
      · rintro ⟨key, found, named, same⟩
        refine ⟨_, ⟨⟨model, key.models⟩, ⟨?_, rfl⟩, rfl⟩, ?_⟩
        · exact (listed position.jobId).2 key found _ (List.mem_map.mpr ⟨model, named, rfl⟩)
        · rw [Option.mem_def] at found
          refine List.mem_map.mpr ⟨key.queueRow position.jobId, List.mem_filter.mpr
            ⟨List.mem_dedup.mpr (((listed position.jobId).1 _ rfl).mpr ?_), decide_eq_true rfl⟩,
            same.symm⟩
          rw [found]
          exact List.mem_singleton_self _

def candidatesOf (jobs : Dict String JobRow) (after : Option QueuePosition)
    (scan : List QueuePosition) : List Candidate :=
  (scan.filter fun position => (after.map fun start => start.precedes position).getD true)
    |>.filterMap (candidateAt jobs)

variable {candidate : Candidate}

theorem candidateAt_position {jobs : Dict String JobRow}
    (joined : candidateAt jobs position = some candidate) :
    candidate.position = position := by
  unfold candidateAt at joined
  split at joined
  · split at joined <;> cases joined
    rfl
  · cases joined

theorem candidatesOf_flatten (jobs : Dict String JobRow) (after : Option QueuePosition)
    (scans : List (List QueuePosition)) :
    (scans.map (candidatesOf jobs after)).flatten = candidatesOf jobs after scans.flatten := by
  induction scans with
  | nil => rfl
  | cons scan rest induction =>
      rw [List.map_cons, List.flatten_cons, List.flatten_cons, induction]
      unfold candidatesOf
      rw [List.filter_append, List.filterMap_append]

variable {after : Option QueuePosition} {scan : List QueuePosition}

theorem mem_candidatesOf {jobs : Dict String JobRow} :
    candidate ∈ candidatesOf jobs after scan ↔
      candidate.position ∈ scan ∧
        (after.map fun start => start.precedes candidate.position).getD true = true ∧
        candidateAt jobs candidate.position = some candidate := by
  unfold candidatesOf
  rw [List.mem_filterMap]
  constructor
  · rintro ⟨position, member, joined⟩
    rw [candidateAt_position joined]
    exact ⟨(List.mem_filter.mp member).1, (List.mem_filter.mp member).2, joined⟩
  · rintro ⟨member, behind, joined⟩
    exact ⟨candidate.position, List.mem_filter.mpr ⟨member, behind⟩, joined⟩

theorem distinct_candidatesOf {jobs : Dict String JobRow}
    (distinct : (scan.map QueuePosition.jobId).Nodup) :
    Distinct Candidate.place (candidatesOf jobs after scan) := by
  have positions : (scan.filter fun position =>
      (after.map fun start => start.precedes position).getD true).Pairwise
        fun left right => left.jobId ≠ right.jobId :=
    (List.pairwise_map.mp distinct).sublist List.filter_sublist
  refine List.Pairwise.filterMap _ ?_ positions
  intro left right different first joined second also same
  refine different ?_
  rw [← candidateAt_position joined, ← candidateAt_position also]
  exact congrArg (fun place => (ofLex (ofLex place).2).2) same

theorem QueueIndex.readCandidates_eq
    (listed : ∀ jobId, queue.Lists jobId (keys jobId)) (jobs : Dict String JobRow) (model : String)
    (after : Option QueuePosition) (limit : Nat) :
    queue.readCandidates jobs model after limit =
      ((candidatesOf jobs after (queue.scans model).flatten).mergeSort
        (Keyset.notAfter Candidate.place)).take limit := by
  have distinct : Distinct Candidate.place (candidatesOf jobs after (queue.scans model).flatten) :=
    distinct_candidatesOf (QueueIndex.nodup_scans listed model)
  rw [← candidatesOf_flatten] at distinct ⊢
  have merged := @foldl_merge_take Candidate _ _ Candidate.place limit
    ((queue.scans model).map (candidatesOf jobs after)) [] distinct
  rw [List.foldl_map] at merged
  simp only [List.mergeSort_nil, List.take_nil, List.nil_append] at merged
  rw [← merged]
  unfold QueueIndex.readCandidates readScan
  rw [Candidate.notAfter_eq]
  rfl

/-! ## The same edits in both formats -/

/-- One content in the two formats: no queued jobs, or what a cutover read and built. -/
inductive CompactStart : JobTables → JobTables → Prop
  | empty (tables : JobTables) (keyed : tables.Keyed)
      (unqueued : ∀ jobId job, tables.jobs.get? jobId = some job → job.state ≠ .queued) :
      CompactStart { tables with queue := .compact [] [] } { tables with queue := .legacy [] }
  | migrated {limits : MigrationLimits} {store migrated : QueueStore}
      (keyed : store.tables.Keyed) (switched : store.cutover limits = (none, migrated)) :
      CompactStart migrated.tables store.tables

inductive QueueEdit.Twins (valid : List String → Prop) (start twin : JobTables) :
    JobTables → JobTables → Prop
  | start : Twins valid start twin start twin
  | edit {tables other after otherAfter : JobTables} (edit : QueueEdit)
      (reached : Twins valid start twin tables other) (allowed : edit.Allowed valid tables)
      (run : edit.run tables = some after) (twinRun : edit.run other = some otherAfter) :
      Twins valid start twin after otherAfter

section

variable {valid : List String → Prop} {start twin tables other after : JobTables}

def QueueEdit.jobs (edit : QueueEdit) (jobs : Dict String JobRow) : Dict String JobRow :=
  match edit with
  | .index job models => jobs.set job.id (job.inQueue models)
  | .unindex _ (some row) => jobs.set row.id row
  | .unindex job none => jobs.erase job.id
  | .replace _ job models => jobs.set job.id (job.inQueue models)
  | .setPriority job priority => jobs.set job.id { job with priority := priority }
  | .update row => jobs.set row.id row
  | .prune _ _ => jobs

theorem QueueEdit.jobs_run {edit : QueueEdit} (run : edit.run tables = some after) :
    after.jobs = edit.jobs tables.jobs := by
  cases edit with
  | index job models =>
      cases run
      rfl
  | unindex job row =>
      obtain ⟨left, unindexed, rfl⟩ := Option.map_eq_some_iff.mp run
      obtain ⟨queue, _, rfl⟩ := Option.map_eq_some_iff.mp unindexed
      cases row <;> rfl
  | replace row job models =>
      obtain ⟨left, unindexed, rfl⟩ := Option.map_eq_some_iff.mp run
      obtain ⟨queue, _, rfl⟩ := Option.map_eq_some_iff.mp unindexed
      rfl
  | setPriority job priority =>
      cases run
      rfl
  | update row =>
      cases run
      rfl
  | prune limit cursor =>
      show after.jobs = tables.jobs
      unfold QueueEdit.run JobTables.pruneGroups at run
      dsimp only at run
      split at run
      · cases run
        rfl
      · obtain ⟨_, _, rfl⟩ := Option.map_eq_some_iff.mp run
        rfl

theorem QueueEdit.Allowed.of_jobs {edit : QueueEdit} (allowed : edit.Allowed valid tables)
    (same : other.jobs = tables.jobs) : edit.Allowed valid other := by
  unfold QueueEdit.Allowed at allowed ⊢
  rwa [same]

theorem QueueEdit.run_legacy (edit : QueueEdit) (format : tables.queue.isCompact = false) :
    ∃ after, edit.run tables = some after := by
  have unindexed (job : JobRow) : ∃ left, tables.unindexJob job = some left := by
    unfold JobTables.unindexJob QueueIndex.unindexQueuedJob
    cases queue : tables.queue with
    | legacy rows =>
        dsimp only
        split <;> exact ⟨_, rfl⟩
    | compact rows groups =>
        rw [queue] at format
        cases format
  cases edit with
  | index job models => exact ⟨_, rfl⟩
  | unindex job row =>
      obtain ⟨left, found⟩ := unindexed job
      exact ⟨_, Option.map_eq_some_iff.mpr ⟨left, found, rfl⟩⟩
  | replace row job models =>
      obtain ⟨left, found⟩ := unindexed row
      exact ⟨_, Option.map_eq_some_iff.mpr ⟨left, found, rfl⟩⟩
  | setPriority job priority => exact ⟨_, rfl⟩
  | update row => exact ⟨_, rfl⟩
  | prune limit cursor =>
      cases queue : tables.queue with
      | legacy rows =>
          refine ⟨tables, ?_⟩
          show tables.pruneGroups limit cursor = some tables
          rw [JobTables.pruneGroups, queue]
      | compact rows groups =>
          rw [queue] at format
          cases format

structure QueueTwins (tables other : JobTables) : Prop where
  compact : tables.queue.isCompact = true
  legacy : other.queue.isCompact = false
  indexed : tables.Indexed List.Nodup
  twinIndexed : other.Indexed List.Nodup
  jobs : other.jobs = tables.jobs

theorem JobTables.Indexed.mono {stronger : List String → Prop} (indexed : tables.Indexed stronger)
    (weaker : ∀ models, stronger models → valid models) : tables.Indexed valid where
  keyed := indexed.keyed
  recorded := by
    intro jobId job found queued
    obtain ⟨models, recorded, accepted⟩ := indexed.recorded jobId job found queued
    exact ⟨models, recorded, weaker models accepted⟩
  listed := indexed.listed
  grouped := indexed.grouped

theorem JobTables.indexed_empty (keyed : tables.Keyed)
    (unqueued : ∀ jobId job, tables.jobs.get? jobId = some job → job.state ≠ .queued)
    (nothing : ∀ jobId, tables.queue.Lists jobId none) (grouped : tables.queue.Grouped) :
    tables.Indexed valid where
  keyed := keyed
  recorded := fun jobId job found queued => absurd queued (unqueued jobId job found)
  listed := by
    intro jobId
    cases found : tables.jobs.get? jobId with
    | none => exact nothing jobId
    | some job =>
        rw [Option.bind_some, JobRow.listedKey_of_ne (unqueued jobId job found)]
        exact nothing jobId
  grouped := grouped

theorem CompactStart.twins (begins : CompactStart start twin) : QueueTwins start twin := by
  cases begins with
  | empty tables keyed unqueued =>
      refine ⟨rfl, rfl, ?_, ?_, rfl⟩
      · refine JobTables.indexed_empty ⟨keyed.nodup, keyed.named⟩ unqueued
          (fun jobId => ⟨SecondaryIndex.Holds.nil, ?_⟩) ?_
        · rintro key ⟨⟩
        · rintro group ⟨⟩
      · exact JobTables.indexed_empty ⟨keyed.nodup, keyed.named⟩ unqueued
          (fun jobId => SecondaryIndex.Holds.nil) trivial
  | migrated keyed switched =>
      obtain ⟨rows, plan, queue, planned, rfl⟩ := QueueStore.cutover_ok switched
      obtain ⟨before, built⟩ := planCompactMigration_indexed keyed queue planned
      refine ⟨rfl, by rw [queue]; rfl, built.mono fun models valid => valid.2.2,
        before.mono fun models valid => valid.2.2, rfl⟩

theorem QueueTwins.edit (twins : QueueTwins tables other) (edit : QueueEdit)
    (allowed : edit.Allowed List.Nodup tables) {otherAfter : JobTables}
    (run : edit.run tables = some after) (twinRun : edit.run other = some otherAfter) :
    QueueTwins after otherAfter where
  compact := (QueueEdit.isCompact_run run).trans twins.compact
  legacy := (QueueEdit.isCompact_run twinRun).trans twins.legacy
  indexed := edit.indexed twins.indexed allowed run
  twinIndexed := edit.indexed twins.twinIndexed (allowed.of_jobs twins.jobs) twinRun
  jobs := by rw [QueueEdit.jobs_run run, QueueEdit.jobs_run twinRun, twins.jobs]

theorem QueueEdit.Twins.sound (begins : CompactStart start twin)
    (reached : QueueEdit.Twins List.Nodup start twin tables other) : QueueTwins tables other := by
  induction reached with
  | start => exact begins.twins
  | edit edit _ allowed run twinRun induction => exact induction.edit edit allowed run twinRun

theorem QueueEdit.Reaches.twins (begins : CompactStart start twin)
    (reached : QueueEdit.Reaches List.Nodup start tables) :
    ∃ other, QueueEdit.Twins List.Nodup start twin tables other := by
  induction reached with
  | start => exact ⟨twin, .start⟩
  | edit edit _ allowed run induction =>
      obtain ⟨other, reached⟩ := induction
      obtain ⟨after, twinRun⟩ := edit.run_legacy (reached.sound begins).legacy
      exact ⟨after, .edit edit reached allowed run twinRun⟩

theorem JobTables.Indexed.readModel_eq (indexed : tables.Indexed valid)
    (also : other.Indexed valid) (jobs : other.jobs = tables.jobs) (model : String)
    (cursor : Option QueuePosition) (limit : Nat) :
    tables.readModel model cursor limit = other.readModel model cursor limit := by
  have twinListed := also.listed
  rw [jobs] at twinListed
  rw [JobTables.readModel_eq, JobTables.readModel_eq, jobs,
    QueueIndex.readCandidates_eq indexed.listed, QueueIndex.readCandidates_eq twinListed]
  refine congrArg (List.take limit) ?_
  refine (distinct_candidatesOf (QueueIndex.nodup_scans indexed.listed model)
    ).ordered_mergeSort.eq_of_mem_iff (distinct_candidatesOf
      (QueueIndex.nodup_scans twinListed model)).ordered_mergeSort fun candidate => ?_
  rw [List.mem_mergeSort, List.mem_mergeSort, mem_candidatesOf, mem_candidatesOf,
    QueueIndex.mem_scans indexed.listed indexed.grouped,
    QueueIndex.mem_scans twinListed also.grouped]

theorem JobTables.Indexed.nodup_readModel (indexed : tables.Indexed valid) (model : String)
    (cursor : Option QueuePosition) (limit : Nat) :
    ((tables.readModel model cursor limit).map fun candidate => candidate.job.id).Nodup := by
  rw [JobTables.readModel_eq]
  exact (indexed.keyed.readCandidates indexed.listed model cursor limit).1

/-- The compact queue reads like the per-model index after the same edits. -/
theorem compact_reads_like_legacy (begins : CompactStart start twin) :
    (QueueEdit.Reaches List.Nodup start tables →
        ∃ other, QueueEdit.Twins List.Nodup start twin tables other) ∧
      ∀ other, QueueEdit.Twins List.Nodup start twin tables other →
        tables.queue.isCompact = true ∧ other.queue.isCompact = false ∧
          ∀ model cursor limit,
            tables.readModel model cursor limit = other.readModel model cursor limit ∧
              ((tables.readModel model cursor limit).map fun candidate =>
                candidate.job.id).Nodup := by
  refine ⟨QueueEdit.Reaches.twins begins, fun other reached => ?_⟩
  have twins := reached.sound begins
  exact ⟨twins.compact, twins.legacy, fun model cursor limit =>
    ⟨twins.indexed.readModel_eq twins.twinIndexed twins.jobs model cursor limit,
      twins.indexed.nodup_readModel model cursor limit⟩⟩

end

/-- The two jobs of the edited queue, read for the model of both. -/
theorem compact_reads_like_legacy_edited :
    ∃ other, QueueEdit.Twins List.Nodup migratedStore.tables queuedStore.tables editedTables
        other ∧
      editedTables.readModel "n" none 4 = other.readModel "n" none 4 := by
  have begins : CompactStart migratedStore.tables queuedStore.tables :=
    @CompactStart.migrated migrationLimits queuedStore migratedStore
      (.of_entries (by decide) (by decide +kernel)) (by decide +kernel)
  obtain ⟨exists_, reads⟩ := @compact_reads_like_legacy _ _ editedTables begins
  obtain ⟨other, twins⟩ := exists_ (reaches_editedTables.mono fun models valid => valid.2.2)
  exact ⟨other, twins, ((reads other twins).2.2 "n" none 4).1⟩

end CityPods.Dispatch
