import CityPods.Dispatch.JobTables
import CityPods.Foundation.JsonStrings

/-! # The compact queue

What the compact format adds to the two formats of the queue index: the build
from the per-model index and back, and the removal of groups without jobs. A
canonical `queue_models` text and the list it spells determine each other, so
the tables keep the list where the source keeps the text.
-/

namespace CityPods.Dispatch

open Foundation
open Foundation.SecondaryIndex (insertOrIgnore)

/-- The columns of a queued job that a migration reads, with the text as it is stored. -/
structure QueuedRow where
  id : String
  priority : Nat
  createdAt : ℚ
  queueModels : Option String
  deriving DecidableEq

def JobRow.queuedRow (job : JobRow) : QueuedRow where
  id := job.id
  priority := job.priority
  createdAt := job.createdAt
  queueModels := job.queueModels.map JsonStrings.stringify

/-- The queued jobs of a table, as a migration reads them. -/
def queuedRows (jobs : Dict String JobRow) : List QueuedRow :=
  (jobs.values.filter fun job => decide (job.state = .queued)).map JobRow.queuedRow

/-- The recorded model set of a job, where it is valid: the canonical text of a list of
models, which are not empty and differ. -/
def QueuedRow.models (job : QueuedRow) : Option (List String) :=
  match job.queueModels.bind JsonStrings.parse with
  | none => none
  | some models =>
      if models.isEmpty ∨ "" ∈ models ∨ ¬ models.Nodup ∨
          some (JsonStrings.stringify models) ≠ job.queueModels then none
      else some models

def QueuedRow.key (job : QueuedRow) (models : List String) : QueueKey :=
  ⟨models, job.priority, job.createdAt⟩

structure MigrationLimits where
  maxJobs : Nat
  maxModelRows : Nat
  maxGroups : Nat
  maxWrites : Nat

def maxSafeInteger : Nat := 9007199254740991

def validLimit (limit : Nat) : Bool := 1 ≤ limit ∧ limit < maxSafeInteger

def MigrationLimits.valid (limits : MigrationLimits) : Bool :=
  [limits.maxJobs, limits.maxModelRows, limits.maxGroups, limits.maxWrites].all validLimit

inductive MigrationRefusal
  | authority
  | invalidLimit
  | jobLimit
  | modelRowLimit
  | invalidModelSet
  | indexMismatch
  | groupLimit
  | writeReserve
  | sourceLimit
  | queueMismatch
  | groupMismatch
  | modelLimit
  deriving DecidableEq

/-- A plan of the build: the queued jobs with their models, and the model sets. -/
structure MigrationPlan where
  jobs : List (QueuedRow × List String) := []
  groups : List (List String) := []
  deriving DecidableEq

/-- The rows of `job_models` that the jobs imply. -/
def MigrationPlan.expected (plan : MigrationPlan) : List ModelRow :=
  plan.jobs.flatMap fun job => (job.1.key job.2).modelRows job.1.id

def MigrationPlan.groupRows (plan : MigrationPlan) : Nat := (plan.groups.map List.length).sum

def MigrationPlan.expectedWrites (plan : MigrationPlan) : Nat := plan.jobs.length + plan.groupRows

/-- Read the jobs: each needs a valid model set, and adds it to the sets. -/
def collectJobs : List QueuedRow → MigrationPlan → Except MigrationRefusal MigrationPlan
  | [], plan => .ok plan
  | job :: later, plan =>
      match job.models with
      | none => .error .invalidModelSet
      | some models =>
          collectJobs later
            { jobs := plan.jobs ++ [(job, models)]
              groups := insertOrIgnore plan.groups models }

/-- Take the rows of the index out of the expected ones. -/
def matchIndex : List ModelRow → List ModelRow → Option (List ModelRow)
  | [], expected => some expected
  | row :: later, expected =>
      if row ∈ expected then matchIndex later (expected.erase row) else none

/-- Check the per-model index against the queued jobs, without changing either. -/
def planCompactMigration (limits : MigrationLimits) (jobs : List QueuedRow)
    (legacy : List ModelRow) : Except MigrationRefusal MigrationPlan :=
  if ¬ limits.valid then .error .invalidLimit
  else if limits.maxJobs < jobs.length then .error .jobLimit
  else if limits.maxModelRows < legacy.length then .error .modelRowLimit
  else
    match collectJobs jobs {} with
    | .error refusal => .error refusal
    | .ok plan =>
        -- a row that is not expected, or an expected one that is missing
        if matchIndex legacy plan.expected.dedup ≠ some [] then .error .indexMismatch
        else if limits.maxGroups < plan.groupRows then .error .groupLimit
        else if limits.maxWrites < plan.expectedWrites then .error .writeReserve
        else .ok plan

def buildCompactMigration (plan : MigrationPlan) : QueueIndex :=
  .compact (plan.jobs.map fun job => (job.1.key job.2).queueRow job.1.id)
    (plan.groups.flatMap fun models => models.map fun model => ⟨model, models⟩)

structure RollbackPlan where
  rows : List ModelRow := []
  remaining : List QueueRow := []
  deriving DecidableEq

def rollbackModels (limits : MigrationLimits) (groups : List GroupRow) (job : QueuedRow)
    (models : List String) :
    List String → List ModelRow → Except MigrationRefusal (List ModelRow)
  | [], rows => .ok rows
  | model :: later, rows =>
      if (⟨model, models⟩ : GroupRow) ∉ groups then .error .groupMismatch
      else if limits.maxModelRows < rows.length + 1 then .error .modelLimit
      else
        rollbackModels limits groups job models later
          (rows ++ [⟨job.id, model, job.priority, job.createdAt⟩])

def rollbackJobs (limits : MigrationLimits) (groups : List GroupRow) :
    List QueuedRow → RollbackPlan → Except MigrationRefusal RollbackPlan
  | [], plan => .ok plan
  | job :: later, plan =>
      match job.models with
      | none => .error .queueMismatch
      | some models =>
          if (job.key models).queueRow job.id ∉ plan.remaining then .error .queueMismatch
          else
            match rollbackModels limits groups job models models plan.rows with
            | .error refusal => .error refusal
            | .ok rows =>
                rollbackJobs limits groups later
                  { rows := rows
                    remaining := plan.remaining.erase ((job.key models).queueRow job.id) }

def planCompactRollback (limits : MigrationLimits) (jobs : List QueuedRow) (queue : List QueueRow)
    (groups : List GroupRow) (legacy : List ModelRow) :
    Except MigrationRefusal (List ModelRow) :=
  if ¬ limits.valid then .error .invalidLimit
  else if limits.maxJobs < jobs.length ∨ limits.maxJobs < queue.length ∨
      limits.maxGroups < groups.length ∨ limits.maxModelRows < legacy.length then
    .error .sourceLimit
  else
    match rollbackJobs limits groups jobs { remaining := queue.dedup } with
    | .error refusal => .error refusal
    | .ok plan =>
        if ¬ plan.remaining.isEmpty then .error .queueMismatch
        else if limits.maxWrites < legacy.length + plan.rows.length then .error .writeReserve
        else .ok plan.rows

/-- The rebuilt index: what was there is deleted, and the rows of the plan are inserted. -/
def buildCompactRollback (rows : List ModelRow) : QueueIndex := .legacy rows

/-- The tables of the queue, with the rows of `job_models` that the cutover leaves behind. -/
structure QueueStore where
  tables : JobTables
  retired : List ModelRow := []
  deriving DecidableEq

/-- Switch to the compact tables. A refusal rolls the transaction back. -/
def QueueStore.cutover (limits : MigrationLimits) (store : QueueStore) :
    Option MigrationRefusal × QueueStore :=
  match store.tables.queue with
  | .compact _ _ => (some .authority, store)
  | .legacy rows =>
      match planCompactMigration limits (queuedRows store.tables.jobs) rows.dedup with
      | .error refusal => (some refusal, store)
      | .ok plan =>
          (none,
            { tables := { store.tables with queue := buildCompactMigration plan }
              retired := rows.dedup })

/-- Switch back: `job_models` is rebuilt and the compact tables are dropped. -/
def QueueStore.rollback (limits : MigrationLimits) (store : QueueStore) :
    Option MigrationRefusal × QueueStore :=
  match store.tables.queue with
  | .legacy _ => (some .authority, store)
  | .compact rows groups =>
      match planCompactRollback limits (queuedRows store.tables.jobs) rows.dedup groups.dedup
          store.retired with
      | .error refusal => (some refusal, store)
      | .ok rows =>
          (none, { tables := { store.tables with queue := buildCompactRollback rows } })

structure GroupCursor where
  after : String × String
  through : String × String
  deriving DecidableEq

def GroupRow.key (group : GroupRow) : String × String :=
  (group.model, JsonStrings.stringify group.modelSet)

def keyPrecedes (left right : String × String) : Bool :=
  left.1 < right.1 ∨ (left.1 = right.1 ∧ left.2 < right.2)

structure GroupMaintenance where
  groups : List GroupRow
  scanned : Nat := 0
  removed : Nat := 0
  next : Option GroupCursor := none

def sortedGroups (groups : List GroupRow) : List GroupRow :=
  groups.dedup.mergeSort fun left right => !keyPrecedes right.key left.key

/-- Scan one page of the groups and remove those whose set has no queued entry. `none` is a
limit the source refuses. -/
def pruneEmptyCompactGroups (limit : Nat) (cursor : Option GroupCursor) (rows : List QueueRow)
    (groups : List GroupRow) : Option GroupMaintenance :=
  if limit < 1 ∨ 64 < limit then none
  else
    match (cursor.map GroupCursor.through).or ((sortedGroups groups).getLast?.map GroupRow.key) with
    | none => some { groups := groups }
    | some through =>
        let page := ((sortedGroups groups).filter fun group =>
          !keyPrecedes through group.key &&
            (cursor.map fun cursor => keyPrecedes cursor.after group.key).getD true).take limit
        let empty := page.filter fun group => !rows.any fun row => decide (row.modelSet = group.modelSet)
        some
          { groups := groups.filter fun group => decide (group ∉ empty)
            scanned := page.length
            removed := empty.length
            next :=
              match page.getLast? with
              | none => none
              | some last =>
                  if page.length = limit ∧ last.key ≠ through then some ⟨last.key, through⟩
                  else none }

end CityPods.Dispatch
