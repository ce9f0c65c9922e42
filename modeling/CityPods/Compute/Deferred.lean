import CityPods.Foundation.CriticalSections
import CityPods.Foundation.PyVal

/-! # The deferred registry

The record of one request that waits for its result, with the pointers by which
a sweep finds it and the audit of its failures. The primary store has no
conditional writes; the record is written and deleted under its own lock.
Instants are microseconds.
-/

namespace CityPods.Compute

open Foundation
open Foundation.LockedRecords (Session)

namespace Deferred

def deferredPrefix : String := "state/llm_deferred/"

def pendingPrefix : String := "state/llm_deferred_index/pending/"

def reconcilePrefix : String := "state/llm_deferred_index/reconcile/"

def v2RefPrefix : String := "state/llm_deferred_index/v2-ref/"

def failurePrefix : String := "state/llm_deferred_failures/"

def lockPrefix : String := "maintenance-leases/llm-deferred/"

def lockTtl : Int := 300 * 1000000

def lockWait : Int := 30 * 1000000

def maxTerminalFailureRetries : Int := 3

/-! ## Requests and results -/

/-- The capsule from which a request that was never submitted is rebuilt; the
policy is its serialization. -/
structure DeferredRequest where
  messages : List PyVal
  policy : PyVal
  outputTokenBudget : Int
  metadataVersion : Int
  timeout : Option ℚ
  maxTokensMode : Option String
  deriving DecidableEq

structure JobResult where
  task : String
  recipeHash : String
  output : PyVal
  model : Option String
  routeId : Option String := none
  upstreamModel : Option String := none
  reasoningLevel : Option String := none
  requestParamsHash : Option String := none
  providerAttempts : Option Int := none
  deriving DecidableEq

structure JobHandle where
  task : String
  recipeHash : String
  backend : String
  ref : String
  structuredOutput : Option String
  model : Option String
  routeId : Option String
  owner : Option String
  inputPerToken : Option ℚ
  outputPerToken : Option ℚ
  attemptedRequests : Option Int
  deferredRequest : Option DeferredRequest
  deriving DecidableEq

inductive Job
  | result (result : JobResult)
  | handle (handle : JobHandle)
  deriving DecidableEq

/-- What the registry takes from the modules around it: the configured routes,
the reading of a record, and the texts of digests and instants. -/
structure Settings where
  canonicalModel : String → String
  routes : List (String × Bool)
  decodeRecord : PyVal → Option Job
  digest : PyVal → String
  isoformat : Int → String
  fromisoformat : String → Option Int

/-! ## Values -/

/-- `data.get(name)`, of something that may not be a mapping. -/
def field (data : PyVal) (name : String) : PyVal :=
  match data with
  | .dict entries => (Dict.get? entries name).getD .none
  | _ => .none

def isMapping : PyVal → Bool
  | .dict _ => true
  | _ => false

def text : Option String → PyVal
  | none => .none
  | some value => .str value

def number : Option ℚ → PyVal
  | none => .none
  | some value => .num value

/-- `int(value)` -/
def toInt? : PyVal → Option Int
  | .num value => some (value.num.tdiv value.den)
  | .bool value => some (if value then 1 else 0)
  | .str value => value.toInt?
  | _ => none

def recordFor : Job → Dict String PyVal
  | .result result => [
      ("status", .str "completed"),
      ("task", .str result.task),
      ("recipe_hash", .str result.recipeHash),
      ("output", result.output),
      ("model", text result.model)]
  | .handle handle => [
      ("status", .str "pending"),
      ("task", .str handle.task),
      ("recipe_hash", .str handle.recipeHash),
      ("backend", .str handle.backend),
      ("ref", .str handle.ref),
      ("structured_output", text handle.structuredOutput),
      ("model", text handle.model),
      ("route_id", text handle.routeId),
      ("owner", text handle.owner),
      ("input_per_token", number handle.inputPerToken),
      ("output_per_token", number handle.outputPerToken),
      ("attempted_requests", number (handle.attemptedRequests.map fun count => (count : ℚ)))] ++
      match handle.deferredRequest with
      | none => []
      | some deferred => [
          ("messages", .list deferred.messages),
          ("policy", deferred.policy),
          ("output_token_budget", .num deferred.outputTokenBudget),
          ("request_metadata_version", .num deferred.metadataVersion)] ++
          (match deferred.timeout with
            | none => []
            | some timeout => [("timeout", .num timeout)]) ++
          match deferred.maxTokensMode with
          | none => []
          | some mode => [("max_tokens_mode", .str mode)]

/-! ## Keys -/

def deferredKey (recipeHash : String) : String := s!"{deferredPrefix}{recipeHash}.json"

def deferredFailureKey (recipeHash : String) : String := s!"{failurePrefix}{recipeHash}.json"

def lockKey (recipeHash : String) : String := s!"{lockPrefix}{recipeHash}.json"

section

variable (settings : Settings)

def candidates (policy : PyVal) : List String :=
  match field policy "allowed_models" with
  | .list allowed => allowed.filterMap PyVal.asStr? |>.map settings.canonicalModel
  | .tuple allowed => allowed.filterMap PyVal.asStr? |>.map settings.canonicalModel
  | _ => settings.routes.map Prod.fst

/-- The configured route keys that a pending record may select. -/
def indexModels (data : PyVal) : List String :=
  if field data "status" ≠ .str "pending" then []
  else
    let policy := field data "policy"
    let selectable := (settings.routes.filter fun route =>
      route.1 ∈ candidates settings policy &&
        ((field policy "allow_paid").truthy || route.2)).map Prod.fst
    match field data "model" with
    | .str resolved =>
        if settings.canonicalModel resolved ∈ settings.routes.map Prod.fst then
          [settings.canonicalModel resolved]
        else selectable.insertionSort (· ≤ ·)
    | _ => selectable.insertionSort (· ≤ ·)

/-- A submitted request, which the terminal feed of the queue finds by its reference. -/
def isV2Dispatched (data : PyVal) : Bool :=
  field data "backend" = .str "llm-dispatch-v2" &&
    (match field data "ref" with
      | .str ref => ref ≠ ""
      | _ => false) &&
    !(match data with
      | .dict entries => Dict.contains entries "messages"
      | _ => false)

def indexKeys (data : PyVal) (recipeHash : String) : List String :=
  let modelKeys := (indexModels settings data).map fun model =>
    s!"{pendingPrefix}{model}/{recipeHash}.json"
  if field data "status" ≠ .str "pending" then modelKeys
  else if isV2Dispatched data then
    let ref := (field data "ref").asStr?.getD ""
    modelKeys ++ [s!"{v2RefPrefix}{ref}.json"]
  else modelKeys ++ [s!"{reconcilePrefix}{recipeHash}.json"]

end

/-! ## Storage -/

/-- What a stored body parses to. -/
inductive Body
  | json (value : PyVal)
  | malformed

inductive Error
  | busy
  | storage
  | valueError (text : String)
  deriving DecidableEq, Repr

abbrev Calls (α : Type) : Type := Session String Body Error α

def now : Calls Int := LockedRecords.Session.now

/-- The value of an object, `None` where it is missing or malformed. -/
def valueOf : Option (Body × ETag) → PyVal
  | some (.json value, _) => value
  | _ => .none

def readJson (key : String) : Calls (PyVal × Option (Body × ETag)) := do
  let found ← LockedRecords.Session.get Error.storage key
  return (valueOf found, found)

def writeJson (key : String) (value : PyVal) : Calls Unit :=
  LockedRecords.Session.put Error.storage key (.json value)

def delete (key : String) (judged : Option (Body × ETag)) : Calls Unit :=
  LockedRecords.Session.delete Error.storage key judged

/-- An advisory index never blocks canonical state. -/
def writePointerKeys (recipeHash : String) : List String → Calls Unit
  | [] => return ()
  | key :: rest => do
      let _ ← (writeJson key (.dict [("recipe_hash", .str recipeHash)])).attempt
      writePointerKeys recipeHash rest

def deletePointerKeys : List String → Calls Unit
  | [] => return ()
  | key :: rest => do
      let _ ← (delete key none).attempt
      deletePointerKeys rest

/-- The body runs under the record's lock, with one token for each attempt to
get it. -/
def deferredRecordLock {α : Type} (recipeHash : String) (tokens : List String) (body : Calls α) :
    Calls α := do
  let began ← now
  LockedRecords.Session.acquireUntil Error.storage Error.busy (lockKey recipeHash) lockTtl
    (began + lockWait) body tokens

/-! ## Writing -/

section

variable (settings : Settings)

def withRecovery (record : Dict String PyVal) (existing : PyVal) (recovery : Option PyVal) :
    Job → Dict String PyVal
  | .result _ => record
  | .handle handle =>
      match recovery with
      | some context => record.set "recovery_context" context
      | none =>
          if isMapping existing && field existing "ref" = .str handle.ref &&
              isMapping (field existing "recovery_context") then
            record.set "recovery_context" (field existing "recovery_context")
          else record

/-- The first write's time stays. -/
def createdAt (existing : PyVal) (clock : Int) : PyVal :=
  match field existing "created_at" with
  | .str created => if created = "" then .str (settings.isoformat clock) else .str created
  | _ => .str (settings.isoformat clock)

/-- The record that is written over `existing`. -/
def nextRecord (existing : PyVal) (result : Job) (clock : Int) (recovery : Option PyVal) : PyVal :=
  .dict ((withRecovery (recordFor result) existing recovery result).set "created_at"
    (createdAt settings existing clock))

def Job.isHandle : Job → Bool
  | .handle _ => true
  | .result _ => false

/-- The locked part: new pointers, then the record, then the pointers that are
stale now. -/
def writeLocked (recipeHash : String) (result : Job) (clock : Int) (recovery : Option PyVal) :
    Calls Unit := do
  let (existing, _) ← readJson (deferredKey recipeHash)
  if field existing "status" = .str "completed" && result.isHandle then return ()
  else
    let record := nextRecord settings existing result clock recovery
    let oldKeys := if isMapping existing then indexKeys settings existing recipeHash else []
    let newKeys := indexKeys settings record recipeHash
    writePointerKeys recipeHash (newKeys.filter (· ∉ oldKeys))
    writeJson (deferredKey recipeHash) record
    deletePointerKeys (oldKeys.filter (· ∉ newKeys))

def writeDeferred (recipeHash : String) (tokens : List String) (result : Job)
    (givenNow : Option Int) (recovery : Option PyVal) : Calls Unit := do
  let clock ← match givenNow with
    | some clock => pure clock
    | none => now
  deferredRecordLock recipeHash tokens (writeLocked settings recipeHash result clock recovery)

/-! ## Discarding -/

/-- The record goes first, then its pointers. -/
def removeRecord (key : String) (judged : Option (Body × ETag)) (data : PyVal)
    (recipeHash : String) : Calls Unit := do
  delete key judged
  deletePointerKeys (indexKeys settings data recipeHash)

/-- Only an unsubmitted capsule of the first layout may be rebuilt. -/
def needsMomentsReplan (handle : JobHandle) : Bool :=
  handle.task = "moment-extraction" && handle.deferredRequest.any fun deferred =>
    deferred.metadataVersion < 1

def legacyLocked (expected : JobHandle) : Calls Bool := do
  let (data, found) ← readJson (deferredKey expected.recipeHash)
  if settings.decodeRecord data ≠ some (.handle expected) then return false
  else
    removeRecord settings (deferredKey expected.recipeHash) found data expected.recipeHash
    return true

def discardLegacyMomentsRequest (tokens : List String) (expected : JobHandle) : Calls Bool :=
  if needsMomentsReplan expected then
    deferredRecordLock expected.recipeHash tokens (legacyLocked settings expected)
  else return false

def discardLocked (recipeHash : String) (expectedRef : Option String) : Calls Bool := do
  let (data, found) ← readJson (deferredKey recipeHash)
  if field data "status" ≠ .str "pending" then return false
  else if expectedRef.any fun ref => field data "ref" ≠ .str ref then return false
  else
    removeRecord settings (deferredKey recipeHash) found data recipeHash
    return true

def discardDeferred (recipeHash : String) (tokens : List String) (expectedRef : Option String) :
    Calls Bool :=
  deferredRecordLock recipeHash tokens (discardLocked settings recipeHash expectedRef)

/-- The failure that a discarded result or handle is charged with. -/
structure Failure where
  typeName : String
  text : String
  terminalReason : Option String
  terminalCatalogDigest : Option String
  deriving DecidableEq

/-- The audit of a completed response that failed its caller's validation. -/
def invalidMarker (prior : Dict String PyVal) (recipeHash task digest : String) (failure : Failure)
    (clock : Int) : Dict String PyVal :=
  let count := match toInt? ((prior.get? "failure_count").getD (.num 0)) with
    | some count => max 0 count + 1
    | none => 1
  prior.update [
    ("recipe_hash", .str recipeHash),
    ("task", .str task),
    ("failure_count", .num count),
    ("first_failed_at", ((prior.get? "first_failed_at").getD .none).orElse
      (.str (settings.isoformat clock))),
    ("last_failed_at", .str (settings.isoformat clock)),
    ("last_error_type", .str failure.typeName),
    ("last_error", .str "completed response failed local schema validation"),
    ("invalid_completed_digest", .str digest),
    ("status", .str (if maxTerminalFailureRetries ≤ count then "exhausted" else "retryable"))]

/-- Charges the stored generation once. -/
def auditInvalid (recipeHash task : String) (data : PyVal) (failure : Failure) : Calls Unit := do
  let digest := settings.digest data
  let (marker, _) ← readJson (deferredFailureKey recipeHash)
  let prior := marker.asDict?.getD []
  if (prior.get? "invalid_completed_digest").getD .none = .str digest then return ()
  else
    let clock ← now
    writeJson (deferredFailureKey recipeHash)
      (.dict (invalidMarker settings prior recipeHash task digest failure clock))

def completedLocked (recipeHash : String) (expected : JobResult) (failure : Option Failure) :
    Calls Bool := do
  let (data, found) ← readJson (deferredKey recipeHash)
  if field data "status" ≠ .str "completed" then return false
  else if settings.decodeRecord data ≠ some (.result expected) then return false
  else
    match failure with
    | none => pure ()
    | some failure => auditInvalid settings recipeHash expected.task data failure
    removeRecord settings (deferredKey recipeHash) found data recipeHash
    return true

def discardCompletedResult (recipeHash : String) (tokens : List String) (expected : JobResult)
    (failure : Option Failure) : Calls Bool :=
  deferredRecordLock recipeHash tokens (completedLocked settings recipeHash expected failure)

/-! ## Terminal failures -/

structure SnapshotEntry where
  key : String
  data : PyVal
  decoded : Option Job
  deleted : Bool := false
  deriving DecidableEq

def SnapshotEntry.refersTo (entry : SnapshotEntry) (recipeHash : String) : Bool :=
  match entry.decoded with
  | some (.handle handle) => handle.recipeHash = recipeHash
  | _ => false

def markTerminalFailure (recipeHash : String) (deleted : Bool) :
    List SnapshotEntry → Option SnapshotEntry × List SnapshotEntry
  | [] => (none, [])
  | entry :: rest =>
      if entry.refersTo recipeHash then (some entry, { entry with deleted := deleted } :: rest)
      else
        let (marked, others) := markTerminalFailure recipeHash deleted rest
        (marked, entry :: others)

def isStructural (failure : Failure) : Bool :=
  (failure.terminalReason = some "route_retired" || failure.terminalReason = some "unadmissible") &&
    failure.terminalCatalogDigest.any (· ≠ "")

/-- `str(error)` on one line, capped. -/
def reason (failure : Failure) : String :=
  String.ofList ((failure.text.toList.map fun char => if char = '\n' then ' ' else char).take 500)

def priorCount (prior : PyVal) : Int :=
  if isMapping prior then
    match prior with
    | .dict entries => (toInt? ((Dict.get? entries "failure_count").getD (.num 0))).getD 0
    | _ => 0
  else 0

def failureMarker (handle : JobHandle) (prior : PyVal) (failure : Failure) (data : PyVal)
    (exhausted structural : Bool) (count clock : Int) : Dict String PyVal :=
  let marker : Dict String PyVal := [
    ("recipe_hash", .str handle.recipeHash),
    ("task", .str handle.task),
    ("failure_count", .num count),
    ("first_failed_at", match field prior "first_failed_at" with
      | .str first => .str first
      | _ => .str (settings.isoformat clock)),
    ("last_failed_at", .str (settings.isoformat clock)),
    ("last_error_type", .str failure.typeName),
    ("last_error", .str (reason failure)),
    ("schema_correction_attempted", .bool (field prior "schema_correction_attempted").truthy),
    ("status", .str (if exhausted || maxTerminalFailureRetries ≤ count then "exhausted"
      else "retryable"))]
  if structural then
    let recovery := if isMapping (field data "recovery_context") then field data "recovery_context"
      else .dict [("route_generations", .dict []), ("input_identity", .str handle.recipeHash)]
    marker.update [
      ("status", .str "structural_blocked"),
      ("terminal_reason", text failure.terminalReason),
      ("terminal_catalog_digest", text failure.terminalCatalogDigest),
      ("original_ref", .str handle.ref),
      ("recovery_disposition", .str "await_eligible_generation_or_rebatch"),
      ("recovery_context", recovery),
      ("input_identity", (field recovery "input_identity").orElse (.str handle.recipeHash))]
  else marker

/-- The audit first: an interruption leaves a stale handle, not a failure without
a record of why the handle went. -/
def failureLocked (snapshot : List SnapshotEntry) (handle : JobHandle) (failure : Failure)
    (exhausted structural : Bool) (givenNow : Option Int) : Calls (Int × List SnapshotEntry) := do
  let (marked, gone) := markTerminalFailure handle.recipeHash true snapshot
  let (_, kept) := markTerminalFailure handle.recipeHash false snapshot
  match marked with
  | none => return (0, gone)
  | some entry =>
      if !isMapping entry.data then return (0, gone)
      else if field entry.data "ref" ≠ .str handle.ref ||
          field entry.data "backend" ≠ .str handle.backend then return (0, kept)
      else
        let (current, found) ← readJson entry.key
        if current ≠ entry.data then return (0, kept)
        else
          let clock ← match givenNow with
            | some clock => pure clock
            | none => now
          let (prior, _) ← readJson (deferredFailureKey handle.recipeHash)
          if structural && !isStructural failure then
            throw (.valueError "structural recovery requires typed reason and catalog identity")
          else
            let count := max 0 (priorCount prior) + if structural then 0 else 1
            writeJson (deferredFailureKey handle.recipeHash)
              (.dict (failureMarker settings handle prior failure entry.data exhausted structural
                count clock))
            removeRecord settings entry.key found entry.data handle.recipeHash
            return (count, gone)

/-- Where the locked part raises, the entries of the handle are not deleted; the
snapshot is its caller's. -/
def discardTerminalFailure (tokens : List String) (snapshot : List SnapshotEntry)
    (handle : JobHandle) (failure : Failure) (exhausted structural : Bool)
    (givenNow : Option Int) : Calls (Int × List SnapshotEntry) :=
  deferredRecordLock handle.recipeHash tokens
    (failureLocked settings snapshot handle failure exhausted structural givenNow)

/-! ## Pruning -/

/-- When a record is old enough to go: its age, or its caller's own deadline. -/
def expiresAt (data : PyVal) (ttl : Int) : Option Int :=
  let created := match field data "created_at" with
    | .str created => if created = "" then none else settings.fromisoformat created
    | _ => none
  created.map fun created =>
    match field (field data "policy") "deadline_at" with
    | .str deadline =>
        if deadline = "" then created + ttl
        else
          match settings.fromisoformat deadline with
          | none => created + ttl
          | some deadline => max (created + ttl) deadline
    | _ => created + ttl

def recipeOf (key : String) : String :=
  String.ofList ((key.toList.drop deferredPrefix.length).dropLast.dropLast.dropLast.dropLast.dropLast)

/-- Reads each expired record again and deletes it where nothing has changed. -/
def pruneEach (clock ttl : Int) :
    List SnapshotEntry → Calls (Int × List SnapshotEntry)
  | [] => return (0, [])
  | entry :: rest => do
      let keep := do
        let (deleted, others) ← pruneEach clock ttl rest
        return (deleted, entry :: others)
      if entry.deleted || !isMapping entry.data then keep
      else
        match expiresAt settings entry.data ttl with
        | none => keep
        | some expiry =>
            if clock ≤ expiry then keep
            else
              let (current, found) ← readJson entry.key
              if current ≠ entry.data then keep
              else
                removeRecord settings entry.key found entry.data (recipeOf entry.key)
                let (deleted, others) ← pruneEach clock ttl rest
                return (deleted + 1, { entry with deleted := true } :: others)

def pruneExpiredDeferredSnapshot (snapshot : List SnapshotEntry) (givenNow : Option Int)
    (ttl : Int) : Calls (Int × List SnapshotEntry) := do
  let clock ← match givenNow with
    | some clock => pure clock
    | none => now
  pruneEach settings clock ttl snapshot

/-! ## Calls -/

inductive Call
  | writeDeferred (tokens : List String) (result : Job) (givenNow : Option Int)
      (recovery : Option PyVal)
  | discardLegacyMomentsRequest (tokens : List String) (expected : JobHandle)
  | discardDeferred (tokens : List String) (expectedRef : Option String)
  | discardCompletedResult (tokens : List String) (expected : JobResult) (failure : Option Failure)
  | discardTerminalFailure (tokens : List String) (snapshot : List SnapshotEntry)
      (handle : JobHandle) (failure : Failure) (exhausted structural : Bool)
      (givenNow : Option Int)
  | pruneExpiredDeferredSnapshot (snapshot : List SnapshotEntry) (givenNow : Option Int) (ttl : Int)

inductive Outcome
  | written
  | discarded (done : Bool)
  | counted (count : Int) (snapshot : List SnapshotEntry)
  deriving DecidableEq

def Call.session (recipeHash : String) : Call → Calls Outcome
  | .writeDeferred tokens result givenNow recovery => do
      Deferred.writeDeferred settings recipeHash tokens result givenNow recovery
      return .written
  | .discardLegacyMomentsRequest tokens expected =>
      return .discarded (← Deferred.discardLegacyMomentsRequest settings tokens expected)
  | .discardDeferred tokens expectedRef =>
      return .discarded (← Deferred.discardDeferred settings recipeHash tokens expectedRef)
  | .discardCompletedResult tokens expected failure =>
      return .discarded (← Deferred.discardCompletedResult settings recipeHash tokens expected failure)
  | .discardTerminalFailure tokens snapshot handle failure exhausted structural givenNow => do
      let (count, others) ← Deferred.discardTerminalFailure settings tokens snapshot handle failure
        exhausted structural givenNow
      return .counted count others
  | .pruneExpiredDeferredSnapshot snapshot givenNow ttl => do
      let (count, others) ← Deferred.pruneExpiredDeferredSnapshot settings snapshot givenNow ttl
      return .counted count others

end

abbrev storage : World (LockedRecords.interface String Body) := LockedRecords.world String Body

def registry (settings : Settings) (recipeHash : String) : Activity storage where
  Call := Call
  Result := Except Error Outcome
  task call := (call.session settings recipeHash).run
  mayStart _ _ := true

end Deferred

end CityPods.Compute
