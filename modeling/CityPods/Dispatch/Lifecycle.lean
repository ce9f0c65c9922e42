import CityPods.Dispatch.Claims

/-! # The end of a job

What a client reads of its jobs and does with them: polls and the feed of
terminal jobs, cancels, acknowledgements and retirement, the retention cleanup
in its two phases, and edits of a job's priority.
-/

namespace CityPods.Dispatch

open Foundation

/-- What a client is told of a job. -/
structure JobStatus where
  id : String
  state : JobState
  resultKey : Option String := none
  payloadKey : Option String := none
  terminalReason : Option String := none
  terminalCatalogDigest : Option String := none
  attempts : Nat := 0
  routeId : Option String := none
  deriving DecidableEq

def whenState (state wanted : JobState) (value : Option α) : Option α :=
  if state = wanted then value else none

def JobRow.status (row : JobRow) : JobStatus where
  id := row.id
  state := row.state
  resultKey := whenState row.state .completed row.resultKey
  payloadKey := whenState row.state .completed (some row.payloadKey)
  terminalReason := whenState row.state .failed row.terminalReason
  terminalCatalogDigest := whenState row.state .failed row.terminalCatalogDigest
  attempts := row.attempts
  routeId := whenState row.state .completed row.leaseRouteId

def pollBatch (ids : List String) (state : Coordinator) : List JobStatus :=
  (ids.dedup.filterMap state.tables.jobs.get?).map JobRow.status

/-- An entry of the terminal feed. -/
structure Terminal where
  id : String
  state : JobState
  resultKey : Option String
  updatedAt : ℚ
  terminalReason : Option String := none
  terminalCatalogDigest : Option String := none
  deriving DecidableEq

def JobRow.terminal (row : JobRow) : Terminal where
  id := row.id
  state := row.state
  resultKey := row.resultKey
  updatedAt := row.updatedAt
  terminalReason := whenState row.state .failed row.terminalReason
  terminalCatalogDigest := whenState row.state .failed row.terminalCatalogDigest

def notLater (left right : JobRow) : Bool := !right.rescueKey.precedes left.rescueKey

/-- The first rows of a state that pass a test, by their last update. -/
def JobTables.oldest (state : JobState) (test : JobRow → Bool) (limit : Nat) (tables : JobTables) :
    List JobRow :=
  ((tables.jobs.values.filter fun job => decide (job.state = state) && test job).mergeSort
    notLater).take limit

/-- `localeCompare` of the platform: the sign tells how its collation orders two strings. -/
abbrev LocaleCompare := String → String → ℤ

/-- The order in which two pages are merged: rows of one update by the collation of
their ids, which need not be the order of the pages. -/
def LocaleCompare.notLater (localeCompare : LocaleCompare) (left right : JobRow) : Bool :=
  left.updatedAt < right.updatedAt ∨
    (left.updatedAt = right.updatedAt ∧ localeCompare left.id right.id ≤ 0)

def mergeSortedRows (left right : List JobRow) (limit : Nat) (le : JobRow → JobRow → Bool) :
    List JobRow :=
  (left.merge right le).take limit

def JobTables.oldestTerminal (localeCompare : LocaleCompare) (test : JobRow → Bool) (limit : Nat)
    (tables : JobTables) : List JobRow :=
  mergeSortedRows (tables.oldest .completed test limit) (tables.oldest .failed test limit) limit
    localeCompare.notLater

/-- The jobs that became terminal after a cursor, and the cursor after them. -/
def terminalFeed (localeCompare : LocaleCompare) (cursor : RescueKey) (limit : Nat)
    (state : Coordinator) : List Terminal × RescueKey :=
  let merged := state.tables.oldestTerminal localeCompare
    (fun job => cursor.precedes job.rescueKey) limit
  (merged.map JobRow.terminal, (merged.getLast?.map JobRow.rescueKey).getD cursor)

def JobRow.purgePendingAt (row : JobRow) (now : ℚ) : JobRow :=
  { row with state := .purgePending, updatedAt := now }

structure CancelProgress where
  tables : JobTables
  cancelledQueued : Nat := 0
  cancelled : List String := []
  inFlight : List String := []
  notFound : List String := []

/-- A leased job is left alone: its call may be running, and only its completion
can fence it. -/
def cancelJob (now : ℚ) (progress : CancelProgress) (jobId : String) : Option CancelProgress :=
  match progress.tables.jobs.get? jobId with
  | none => some { progress with notFound := progress.notFound ++ [jobId] }
  | some row =>
      match row.state with
      | .leased | .unknownAttempt =>
          some { progress with inFlight := progress.inFlight ++ [jobId] }
      | .purgePending => some { progress with cancelled := progress.cancelled ++ [jobId] }
      | .queued =>
          (progress.tables.withdraw row (row.purgePendingAt now)).map fun tables =>
            { progress with
              tables := tables
              cancelledQueued := progress.cancelledQueued + 1
              cancelled := progress.cancelled ++ [jobId] }
      | .completed | .retryable | .failed =>
          some
            { progress with
              tables := progress.tables.writeRow (row.purgePendingAt now)
              cancelled := progress.cancelled ++ [jobId] }

def commitCancel (state : Coordinator) (progress : CancelProgress) : Coordinator :=
  { state with
    tables := progress.tables
    scheduler :=
      { state.scheduler with
        queuedJobCount :=
          if 0 < progress.cancelledQueued then
            max 0 (state.scheduler.queuedJobCount - progress.cancelledQueued)
          else state.scheduler.queuedJobCount } }

structure CancelReply where
  cancelled : List String
  inFlight : List String
  notFound : List String
  deriving DecidableEq

/-- Cancel jobs that are not in flight; past the optional threshold none is. -/
def cancelBatch (now : ℚ) (rowsSpent : Bool) (jobIds : List String) (state : Coordinator) :
    Option (Coordinator × CancelReply) :=
  if rowsSpent then some (state, ⟨[], jobIds, []⟩)
  else
    let begun := state.ensureQueuedJobCounter
    (jobIds.dedup.foldlM (cancelJob now) { tables := begun.tables }).map fun progress =>
      (commitCancel begun progress, ⟨progress.cancelled, progress.inFlight, progress.notFound⟩)

def completedIds (tables : JobTables) (jobIds : List String) : List String :=
  jobIds.dedup.filter fun jobId =>
    ((tables.jobs.get? jobId).map JobRow.state) = some .completed

def purgeJob (now : ℚ) (tables : JobTables) (jobId : String) : JobTables :=
  match tables.jobs.get? jobId with
  | some row => tables.writeRow (row.purgePendingAt now)
  | none => tables

def purgeJobs (now : ℚ) (tables : JobTables) (jobIds : List String) : JobTables :=
  jobIds.foldl (purgeJob now) tables

structure AckReply where
  acked : List String
  ignored : List String
  deriving DecidableEq

/-- The results of these jobs have been consumed: move the completed ones to the purge. -/
def ackResults (now : ℚ) (rowsSpent : Bool) (jobIds : List String) (state : Coordinator) :
    Coordinator × AckReply :=
  if rowsSpent then (state, ⟨[], jobIds⟩)
  else
    let acked := completedIds state.tables jobIds
    ({ state with tables := purgeJobs now state.tables acked },
      ⟨acked, jobIds.filter fun jobId => decide (jobId ∉ acked)⟩)

def holdsConsumed (tables : JobTables) (item : String × Option String) : Bool :=
  match tables.jobs.get? item.1 with
  | some row =>
      row.state = .completed ∧ row.resultKey.getD "" ≠ "" ∧ row.resultKey = item.2
  | none => false

def deleteJobs (tables : JobTables) (jobIds : List String) : JobTables :=
  jobIds.foldl (fun tables jobId => tables.deleteRow jobId) tables

/-- The rows of consumed results whose objects the caller has deleted are deleted,
where the row still holds that very result. -/
def retireConsumed (rowsSpent : Bool) (items : List (String × Option String))
    (state : Coordinator) : Coordinator × List String :=
  if rowsSpent then (state, [])
  else
    let wanted := Dict.update [] items
    let retired := Dict.keys (wanted.filter (holdsConsumed state.tables))
    ({ state with tables := deleteJobs state.tables retired }, retired)

def retentionOver (now retentionMs : ℚ) (row : JobRow) : Bool := row.updatedAt < now - retentionMs

def JobTables.carriedOver (limit : Nat) (tables : JobTables) : List JobRow :=
  tables.oldest .purgePending (fun _ => true) limit

def newlyEligible (localeCompare : LocaleCompare) (now retentionMs : ℚ) (limit : Nat)
    (tables : JobTables) : List JobRow :=
  tables.oldestTerminal localeCompare (retentionOver now retentionMs)
    (limit - (tables.carriedOver limit).length)

/-- The first phase: list the jobs whose objects may be deleted, those already in the
purge first. -/
def purgePendingBatch (localeCompare : LocaleCompare) (now retentionMs : ℚ) (rowsSpent : Bool)
    (limit : Nat) (state : Coordinator) : Coordinator × List JobRow :=
  if rowsSpent then (state, [])
  else
    let eligible := newlyEligible localeCompare now retentionMs limit state.tables
    ({ state with tables := purgeJobs now state.tables (eligible.map JobRow.id) },
      state.tables.carriedOver limit ++ eligible)

def purgePendingIds (tables : JobTables) (jobIds : List String) : List String :=
  jobIds.dedup.filter fun jobId =>
    ((tables.jobs.get? jobId).map JobRow.state) = some .purgePending

/-- The second phase: delete the rows whose objects are gone. -/
def confirmPurge (jobIds : List String) (state : Coordinator) : Coordinator :=
  { state with tables := deleteJobs state.tables (purgePendingIds state.tables jobIds) }

/-- A direct edit of a job's priority. -/
def setPriority (jobId : String) (priority : Nat) (state : Coordinator) : Option Coordinator :=
  match state.tables.jobs.get? jobId with
  | none => some state
  | some row =>
      if 1 < priority then none
      else some { state with tables := state.tables.writeRow { row with priority := priority } }

end CityPods.Dispatch
