import CityPods.Dispatch.Coherence
import CityPods.Dispatch.CompactQueue

/-! # Edits of the queue index

The edits that jobs make to the queue index while they come and go, and the
removal of empty groups between them. In either format the index lists exactly
the queued jobs, and a group is kept while a job needs it.
-/

namespace CityPods.Dispatch

open Foundation SecondaryIndex

/-! ## Edits -/

inductive QueueEdit
  | index (job : JobRow) (models : List String)
  | unindex (job : JobRow) (after : Option JobRow)
  | replace (row job : JobRow) (models : List String)
  | setPriority (job : JobRow) (priority : Nat)
  | update (row : JobRow)
  | prune (limit : Nat) (cursor : Option GroupCursor)

/-- The per-model index has no groups to prune. -/
def JobTables.pruneGroups (limit : Nat) (cursor : Option GroupCursor) (tables : JobTables) :
    Option JobTables :=
  match tables.queue with
  | .legacy _ => some tables
  | .compact rows groups =>
      (pruneEmptyCompactGroups limit cursor rows groups).map fun maintenance =>
        { tables with queue := .compact rows maintenance.groups }

def QueueEdit.run : QueueEdit → JobTables → Option JobTables
  | .index job models, tables =>
      some ((tables.writeRow (job.inQueue models)).indexJob job models)
  | .unindex job after, tables =>
      (tables.unindexJob job).map fun tables =>
        match after with
        | some row => tables.writeRow row
        | none => tables.deleteRow job.id
  | .replace row job models, tables =>
      (tables.unindexJob row).map fun tables =>
        (tables.writeRow (job.inQueue models)).indexJob job models
  | .setPriority job priority, tables => some (tables.writeRow { job with priority := priority })
  | .update row, tables => some (tables.writeRow row)
  | .prune limit cursor, tables => tables.pruneGroups limit cursor

/-- How the edits are called: a job is indexed when it comes into the queue, or again under
the key it has; it is unindexed when it leaves; it moves to other models, or to those of a
new submission, by both; other rows change outside the queue. -/
def QueueEdit.Allowed (valid : List String → Prop) (tables : JobTables) : QueueEdit → Prop
  | .index job models => valid models ∧
      ((∀ row, tables.jobs.get? job.id = some row → row.state ≠ .queued) ∨
        tables.jobs.get? job.id = some (job.inQueue models))
  | .unindex job after => tables.jobs.get? job.id = some job ∧ job.state = .queued ∧
      job.queueModels.isSome ∧ ∀ row ∈ after, row.id = job.id ∧ row.state ≠ .queued
  | .replace row job models => valid models ∧ tables.jobs.get? row.id = some row ∧
      row.state = .queued ∧ row.queueModels.isSome ∧ job.id = row.id
  | .setPriority job _ => tables.jobs.get? job.id = some job
  | .update row => row.state ≠ .queued ∧
      ∀ before, tables.jobs.get? row.id = some before → before.state ≠ .queued
  | .prune _ _ => True

inductive QueueEdit.Reaches (valid : List String → Prop) (start : JobTables) : JobTables → Prop
  | start : Reaches valid start start
  | edit {tables after : JobTables} (edit : QueueEdit) (reached : Reaches valid start tables)
      (allowed : edit.Allowed valid tables) (run : edit.run tables = some after) :
      Reaches valid start after

/-! ## Indexed tables -/

def QueueIndex.Grouped : QueueIndex → Prop
  | .legacy _ => True
  | .compact _ groups => ∀ group ∈ groups, group.model ∈ group.modelSet

structure JobTables.Indexed (valid : List String → Prop) (tables : JobTables) : Prop where
  keyed : tables.Keyed
  recorded : ∀ jobId job, tables.jobs.get? jobId = some job → job.state = .queued →
    ∃ models, job.queueModels = some models ∧ valid models
  listed : ∀ jobId, tables.queue.Lists jobId ((tables.jobs.get? jobId).bind JobRow.listedKey)
  grouped : tables.queue.Grouped

section

variable {valid : List String → Prop} {tables after : JobTables} {job : JobRow} {queue : QueueIndex}

theorem QueueIndex.Grouped.indexQueuedJobModels (grouped : queue.Grouped)
    (jobId : String) (key : QueueKey) : (queue.indexQueuedJobModels jobId key).Grouped := by
  cases queue with
  | legacy rows => trivial
  | compact rows groups =>
      intro group member
      rcases mem_insertAll.mp member with old | new
      · exact grouped group old
      · obtain ⟨model, named, rfl⟩ := List.mem_map.mp new
        exact named

variable {left : QueueIndex}

theorem QueueIndex.Grouped.unindexQueuedJob (grouped : queue.Grouped)
    (unindexed : queue.unindexQueuedJob job = some left) : left.Grouped := by
  cases queue with
  | legacy rows =>
      unfold QueueIndex.unindexQueuedJob at unindexed
      dsimp only at unindexed
      split at unindexed <;> cases unindexed <;> trivial
  | compact rows groups =>
      obtain ⟨key, _, rfl⟩ := Option.map_eq_some_iff.mp unindexed
      exact grouped

theorem QueueIndex.Grouped.syncPriority (grouped : queue.Grouped)
    (jobId : String) (before later : JobRow) : (queue.syncPriority jobId before later).Grouped := by
  unfold QueueIndex.syncPriority
  split
  · exact grouped
  cases queue with
  | legacy rows => trivial
  | compact rows groups => exact grouped

theorem QueueIndex.Grouped.writeRow (grouped : tables.queue.Grouped) (row : JobRow) :
    (tables.writeRow row).queue.Grouped := by
  cases found : tables.jobs.get? row.id with
  | none => simpa only [JobTables.writeRow, found] using grouped
  | some before =>
      simp only [JobTables.writeRow, found]
      exact grouped.syncPriority _ _ _

/-- Writing one row and bringing its entries into line keeps the tables indexed. -/
theorem JobTables.Indexed.write (indexed : tables.Indexed valid)
    (jobs : after.jobs = tables.jobs.set job.id job)
    (recorded : job.state = .queued → ∃ models, job.queueModels = some models ∧ valid models)
    (lists : after.queue.Lists job.id job.listedKey)
    (spares : QueueIndex.Spares job.id tables.queue after.queue)
    (grouped : after.queue.Grouped) : after.Indexed valid where
  keyed := by
    refine ⟨?_, ?_⟩
    · rw [jobs]
      exact Dict.nodup_keys_set indexed.keyed.nodup job.id job
    · intro jobId found read
      rw [jobs, Dict.get?_set] at read
      split at read
      · next same =>
        rw [← Option.some.inj read, same]
      · exact indexed.keyed.named jobId found read
  recorded := by
    intro jobId found read queued
    rw [jobs, Dict.get?_set] at read
    split at read
    · rw [← Option.some.inj read] at queued ⊢
      exact recorded queued
    · exact indexed.recorded jobId found read queued
  listed := by
    intro jobId
    rw [jobs, Dict.get?_set]
    split
    · next same =>
      exact same ▸ lists
    · next different =>
      exact spares jobId _ (fun same => different same.symm) (indexed.listed jobId)
  grouped := grouped

variable {jobId : String}

theorem JobTables.Indexed.lists_none (indexed : tables.Indexed valid)
    (unqueued : ∀ row, tables.jobs.get? jobId = some row → row.state ≠ .queued) :
    tables.queue.Lists jobId none := by
  have listed := indexed.listed jobId
  cases found : tables.jobs.get? jobId with
  | none => rwa [found] at listed
  | some row => rwa [found, Option.bind_some, JobRow.listedKey_of_ne (unqueued row found)] at listed

theorem JobTables.Indexed.lists_key (indexed : tables.Indexed valid) {models : List String}
    (found : tables.jobs.get? job.id = some job) (queued : job.state = .queued)
    (recorded : job.queueModels = some models) :
    tables.queue.Lists job.id (some ⟨models, job.priority, job.createdAt⟩) := by
  have listed := indexed.listed job.id
  rwa [found, Option.bind_some, JobRow.listedKey, if_pos queued, JobRow.queueKey, recorded]
    at listed

theorem QueueIndex.Lists.again {key : QueueKey} (lists : queue.Lists jobId (some key)) :
    (queue.indexQueuedJobModels jobId key).Lists jobId (some key) := by
  cases queue with
  | legacy rows =>
      intro row owned
      rw [mem_insertAll]
      have same := lists row owned
      exact ⟨fun member => member.elim same.mp id, .inr⟩
  | compact rows groups =>
      refine ⟨?_, ?_⟩
      · intro row owned
        rw [mem_insertAll]
        have same := lists.1 row owned
        exact ⟨fun member => member.elim same.mp id, .inr⟩
      · intro listed same group member
        exact mem_insertAll.mpr (.inl (lists.2 listed same group member))

/-! ## Each edit keeps the tables indexed -/

variable {models : List String}

theorem JobTables.Indexed.index (indexed : tables.Indexed valid)
    (allowed : QueueEdit.Allowed valid tables (.index job models)) :
    ((tables.writeRow (job.inQueue models)).indexJob job models).Indexed valid := by
  obtain ⟨accepted, state⟩ := allowed
  have spares := (tables.spares_writeRow (job.inQueue models)).trans
    (QueueIndex.spares_index (tables.writeRow (job.inQueue models)).queue job.id
      ⟨models, job.priority, job.createdAt⟩)
  refine indexed.write rfl (fun _ => ⟨models, rfl, accepted⟩) ?_ spares
    ((indexed.grouped.writeRow _).indexQueuedJobModels _ _)
  rcases state with unqueued | same
  · exact QueueIndex.lists_index
      (JobTables.lists_writeRow_none (job.inQueue models) (indexed.lists_none unqueued)) _
  · have listed : tables.queue.Lists job.id (some ⟨models, job.priority, job.createdAt⟩) :=
      @JobTables.Indexed.lists_key valid tables (job.inQueue models) indexed models same rfl rfl
    have kept : (tables.writeRow (job.inQueue models)).queue = tables.queue :=
      @JobTables.queue_writeRow tables (job.inQueue models) (job.inQueue models) same rfl
    show ((tables.writeRow (job.inQueue models)).queue.indexQueuedJobModels job.id _).Lists _ _
    rw [kept]
    exact listed.again

theorem JobTables.Indexed.unindexJob (indexed : tables.Indexed valid)
    (found : tables.jobs.get? job.id = some job) (queued : job.state = .queued)
    (recorded : job.queueModels.isSome) :
    ∃ queue, tables.unindexJob job = some { tables with queue := queue } ∧
      queue.Lists job.id none ∧ QueueIndex.Spares job.id tables.queue queue ∧ queue.Grouped := by
  obtain ⟨models, recorded⟩ := Option.isSome_iff_exists.mp recorded
  have key : job.queueKey = some ⟨models, job.priority, job.createdAt⟩ := by
    simp [JobRow.queueKey, recorded]
  obtain ⟨queue, unindexed, unlisted, spares⟩ :=
    QueueIndex.lists_unindex key (indexed.lists_key found queued recorded)
  refine ⟨queue, ?_, unlisted, spares, indexed.grouped.unindexQueuedJob unindexed⟩
  rw [JobTables.unindexJob, unindexed, Option.map_some]

theorem JobTables.Indexed.unindex (indexed : tables.Indexed valid) {row : Option JobRow}
    (allowed : QueueEdit.Allowed valid tables (.unindex job row))
    (run : (QueueEdit.unindex job row).run tables = some after) : after.Indexed valid := by
  obtain ⟨found, queued, recorded, leaves⟩ := allowed
  obtain ⟨queue, left, unlisted, spares, grouped⟩ := indexed.unindexJob found queued recorded
  unfold QueueEdit.run at run
  dsimp only at run
  rw [left, Option.map_some, Option.some.injEq] at run
  subst run
  set unlistedTables : JobTables := { tables with queue := queue }
  cases row with
  | some row =>
      obtain ⟨same, out⟩ := leaves row rfl
      refine indexed.write rfl (fun inside => absurd inside out) ?_ ?_
        (@QueueIndex.Grouped.writeRow unlistedTables grouped row)
      · rw [JobRow.listedKey_of_ne out]
        exact @JobTables.lists_writeRow_none unlistedTables row (same ▸ unlisted)
      · rw [same]
        exact spares.trans (same ▸ JobTables.spares_writeRow unlistedTables row)
  | none =>
      refine ⟨⟨Dict.nodup_keys_erase indexed.keyed.nodup job.id, ?_⟩, ?_, ?_, grouped⟩
      · intro jobId other read
        simp only [JobTables.deleteRow, Dict.get?_erase] at read
        split at read
        · cases read
        · exact indexed.keyed.named jobId other read
      · intro jobId other read
        simp only [JobTables.deleteRow, Dict.get?_erase] at read
        split at read
        · cases read
        · exact indexed.recorded jobId other read
      · intro jobId
        simp only [JobTables.deleteRow, Dict.get?_erase]
        split
        · next same =>
          exact same ▸ unlisted
        · next different =>
          exact spares jobId _ (fun same => different same.symm) (indexed.listed jobId)

variable {row : JobRow}

theorem JobTables.Indexed.replace (indexed : tables.Indexed valid)
    (allowed : QueueEdit.Allowed valid tables (.replace row job models))
    (run : (QueueEdit.replace row job models).run tables = some after) : after.Indexed valid := by
  obtain ⟨accepted, found, queued, recorded, same⟩ := allowed
  obtain ⟨queue, left, unlisted, spares, grouped⟩ := indexed.unindexJob found queued recorded
  unfold QueueEdit.run at run
  dsimp only at run
  rw [left, Option.map_some, Option.some.injEq] at run
  subst run
  set unlistedTables : JobTables := { tables with queue := queue }
  rw [← same] at unlisted spares
  refine @JobTables.Indexed.write valid tables _ (job.inQueue models) indexed rfl
    (fun _ => ⟨models, rfl, accepted⟩) ?_ ?_ ?_
  · exact QueueIndex.lists_index
      (@JobTables.lists_writeRow_none unlistedTables (job.inQueue models) unlisted) _
  · exact spares.trans ((JobTables.spares_writeRow unlistedTables (job.inQueue models)).trans
      (QueueIndex.spares_index (unlistedTables.writeRow (job.inQueue models)).queue job.id
        ⟨models, job.priority, job.createdAt⟩))
  · exact (@QueueIndex.Grouped.writeRow unlistedTables grouped (job.inQueue models)
      ).indexQueuedJobModels _ _

theorem JobTables.Indexed.setPriority (indexed : tables.Indexed valid)
    (found : tables.jobs.get? job.id = some job) (priority : Nat) :
    (tables.writeRow { job with priority := priority }).Indexed valid := by
  set edited : JobRow := { job with priority := priority }
  have synced : (tables.writeRow edited).queue = tables.queue.syncPriority job.id job edited := by
    show (match tables.jobs.get? job.id with
      | some before => tables.queue.syncPriority job.id before edited
      | none => tables.queue) = _
    rw [found]
  refine @JobTables.Indexed.write valid tables _ edited indexed rfl
    (fun queued => indexed.recorded job.id job found queued) ?_ (tables.spares_writeRow edited)
    (indexed.grouped.writeRow edited)
  rw [synced]
  have listed := indexed.listed job.id
  rw [found, Option.bind_some] at listed
  by_cases queued : job.state = .queued
  · rw [JobRow.listedKey, if_pos queued] at listed
    rw [JobRow.listedKey, if_pos (show edited.state = .queued from queued)]
    exact QueueIndex.lists_syncPriority rfl rfl listed
  · rw [JobRow.listedKey_of_ne queued] at listed
    rw [JobRow.listedKey_of_ne (show edited.state ≠ .queued from queued)]
    exact QueueIndex.lists_syncPriority_none listed job edited

theorem JobTables.Indexed.update (indexed : tables.Indexed valid)
    (allowed : QueueEdit.Allowed valid tables (.update row)) :
    (tables.writeRow row).Indexed valid := by
  refine indexed.write rfl (fun inside => absurd inside allowed.1) ?_ (tables.spares_writeRow row)
    (indexed.grouped.writeRow row)
  rw [JobRow.listedKey_of_ne allowed.1]
  exact JobTables.lists_writeRow_none row (indexed.lists_none allowed.2)

variable {limit : Nat} {cursor : Option GroupCursor}

theorem pruneEmptyCompactGroups_keeps
    {rows : List QueueRow} {groups : List GroupRow} {maintenance : GroupMaintenance}
    (pruned : pruneEmptyCompactGroups limit cursor rows groups = some maintenance)
    (group : GroupRow) :
    (group ∈ maintenance.groups → group ∈ groups) ∧
      (group ∈ groups → (∃ row ∈ rows, row.modelSet = group.modelSet) →
        group ∈ maintenance.groups) := by
  unfold pruneEmptyCompactGroups at pruned
  split at pruned
  · cases pruned
  split at pruned
  · cases pruned
    exact ⟨id, fun member _ => member⟩
  · cases pruned
    refine ⟨fun member => (List.mem_filter.mp member).1, ?_⟩
    rintro member ⟨row, present, same⟩
    refine List.mem_filter.mpr ⟨member, decide_eq_true fun empty => ?_⟩
    have none := (List.mem_filter.mp empty).2
    rw [Bool.not_eq_true', List.any_eq_false] at none
    exact none row present (decide_eq_true same)

theorem JobTables.Indexed.prune (indexed : tables.Indexed valid)
    (run : tables.pruneGroups limit cursor = some after) :
    after.Indexed valid := by
  unfold JobTables.pruneGroups at run
  cases queue : tables.queue with
  | legacy rows =>
      rw [queue] at run
      cases run
      exact indexed
  | compact rows groups =>
      rw [queue] at run
      obtain ⟨maintenance, pruned, rfl⟩ := Option.map_eq_some_iff.mp run
      have keeps := pruneEmptyCompactGroups_keeps pruned
      refine ⟨⟨indexed.keyed.nodup, indexed.keyed.named⟩, indexed.recorded, ?_, ?_⟩
      · intro jobId
        have lists := indexed.listed jobId
        rw [queue] at lists
        refine ⟨lists.1, fun key listed group member => ?_⟩
        refine (keeps group).2 (lists.2 key listed group member) ⟨key.queueRow jobId, ?_, ?_⟩
        · -- the row that lists the job keeps its group
          refine (lists.1 (key.queueRow jobId) rfl).mpr ?_
          rw [Option.mem_def] at listed
          rw [listed]
          exact List.mem_singleton_self _
        · obtain ⟨model, _, rfl⟩ := List.mem_map.mp member
          rfl
      · have grouped := indexed.grouped
        rw [queue] at grouped
        exact fun group member => grouped group ((keeps group).1 member)

theorem QueueEdit.indexed (edit : QueueEdit) (indexed : tables.Indexed valid)
    (allowed : edit.Allowed valid tables) (run : edit.run tables = some after) :
    after.Indexed valid := by
  cases edit with
  | index job models => exact Option.some.inj run ▸ indexed.index allowed
  | unindex job row => exact indexed.unindex allowed run
  | replace row job models => exact indexed.replace allowed run
  | setPriority job priority => exact Option.some.inj run ▸ indexed.setPriority allowed priority
  | update row => exact Option.some.inj run ▸ indexed.update allowed
  | prune limit cursor => exact indexed.prune run

theorem QueueEdit.Reaches.indexed (indexed : tables.Indexed valid)
    (reached : QueueEdit.Reaches valid tables after) : after.Indexed valid := by
  induction reached with
  | start => exact indexed
  | edit edit _ allowed run induction => exact edit.indexed induction allowed run

variable {stronger : List String → Prop} {edit : QueueEdit}

theorem QueueEdit.Allowed.mono
    (allowed : edit.Allowed stronger tables) (weaker : ∀ models, stronger models → valid models) :
    edit.Allowed valid tables := by
  cases edit with
  | index job models => exact ⟨weaker models allowed.1, allowed.2⟩
  | replace row job models => exact ⟨weaker models allowed.1, allowed.2⟩
  | unindex job row => exact allowed
  | setPriority job priority => exact allowed
  | update row => exact allowed
  | prune limit cursor => exact allowed

theorem QueueEdit.Reaches.mono (reached : QueueEdit.Reaches stronger tables after)
    (weaker : ∀ models, stronger models → valid models) : QueueEdit.Reaches valid tables after := by
  induction reached with
  | start => exact .start
  | edit edit _ allowed run induction => exact .edit edit induction (allowed.mono weaker) run

/-! ## The format -/

def QueueIndex.isCompact : QueueIndex → Bool
  | .legacy _ => false
  | .compact _ _ => true

theorem QueueIndex.isCompact_indexQueuedJobModels (queue : QueueIndex) (jobId : String)
    (key : QueueKey) : (queue.indexQueuedJobModels jobId key).isCompact = queue.isCompact := by
  cases queue <;> rfl

theorem QueueIndex.isCompact_unindexQueuedJob
    (unindexed : queue.unindexQueuedJob job = some left) : left.isCompact = queue.isCompact := by
  cases queue with
  | legacy rows =>
      unfold QueueIndex.unindexQueuedJob at unindexed
      dsimp only at unindexed
      split at unindexed <;> cases unindexed <;> rfl
  | compact rows groups =>
      obtain ⟨key, _, rfl⟩ := Option.map_eq_some_iff.mp unindexed
      rfl

theorem JobTables.isCompact_writeRow (tables : JobTables) (row : JobRow) :
    (tables.writeRow row).queue.isCompact = tables.queue.isCompact := by
  unfold JobTables.writeRow
  dsimp only
  split
  · unfold QueueIndex.syncPriority
    split
    · rfl
    · cases tables.queue <;> rfl
  · rfl

theorem JobTables.isCompact_unindexJob {left : JobTables}
    (unindexed : tables.unindexJob job = some left) :
    left.queue.isCompact = tables.queue.isCompact := by
  obtain ⟨queue, found, rfl⟩ := Option.map_eq_some_iff.mp unindexed
  exact QueueIndex.isCompact_unindexQueuedJob found

theorem JobTables.isCompact_pruneGroups (pruned : tables.pruneGroups limit cursor = some after) :
    after.queue.isCompact = tables.queue.isCompact := by
  unfold JobTables.pruneGroups at pruned
  cases queue : tables.queue with
  | legacy rows =>
      rw [queue] at pruned
      cases pruned
      rw [queue]
  | compact rows groups =>
      rw [queue] at pruned
      obtain ⟨_, _, rfl⟩ := Option.map_eq_some_iff.mp pruned
      rfl

/-- No edit changes the format. -/
theorem QueueEdit.isCompact_run (run : edit.run tables = some after) :
    after.queue.isCompact = tables.queue.isCompact := by
  cases edit with
  | index job models =>
      cases run
      exact (QueueIndex.isCompact_indexQueuedJobModels _ _ _).trans (tables.isCompact_writeRow _)
  | unindex job row =>
      obtain ⟨left, unindexed, rfl⟩ := Option.map_eq_some_iff.mp run
      have kept := JobTables.isCompact_unindexJob unindexed
      cases row with
      | none => exact kept
      | some row => exact (left.isCompact_writeRow row).trans kept
  | replace row job models =>
      obtain ⟨left, unindexed, rfl⟩ := Option.map_eq_some_iff.mp run
      exact (QueueIndex.isCompact_indexQueuedJobModels _ _ _).trans
        ((left.isCompact_writeRow _).trans (JobTables.isCompact_unindexJob unindexed))
  | setPriority job priority =>
      cases run
      exact tables.isCompact_writeRow _
  | update row =>
      cases run
      exact tables.isCompact_writeRow _
  | prune limit cursor => exact JobTables.isCompact_pruneGroups run

theorem QueueEdit.Reaches.isCompact (reached : QueueEdit.Reaches valid tables after) :
    after.queue.isCompact = tables.queue.isCompact := by
  induction reached with
  | start => rfl
  | edit edit _ _ run induction => exact (QueueEdit.isCompact_run run).trans induction

end

end CityPods.Dispatch
