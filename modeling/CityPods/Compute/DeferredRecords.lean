import Mathlib.Data.List.Infix
import CityPods.Compute.DeferredRuns
import CityPods.Foundation.Outcomes

/-! # What a deferred record holds

The policy of a request, the capsule from which the request is rebuilt, and the
reading of a stored record, which may hold anything.
-/

namespace CityPods.Compute

open Foundation

namespace Deferred

/-! ## Policies -/

inductive TimeoutClass
  | fast
  | long
  deriving DecidableEq

def TimeoutClass.text : TimeoutClass → String
  | .fast => "fast"
  | .long => "long"

structure LLMRequestPolicy where
  allowedModels : Option (List String) := none
  allowPaid : Bool := false
  allowExperimental : Bool := false
  deadlineAt : Option Int := none
  purpose : String := ""
  requireDirect : Bool := false
  submitNext : Bool := false
  allowBatch : Bool := true
  allowDispatchOverflow : Bool := false
  queueOnly : Bool := false
  timeoutClass : TimeoutClass := .long
  priority : Fin 2 := 1
  backupModels : List String := []
  backupAfterAttempts : Option Nat := none
  allowedRouteIds : Option (List String) := none
  deriving DecidableEq

structure DeferredLLMRequest where
  messages : List PyVal
  policy : LLMRequestPolicy
  outputTokenBudget : Int := 1024
  timeout : Option ℚ := none
  maxTokensMode : Option String := none
  metadataVersion : Int := 1
  deriving DecidableEq

def names (values : List String) : PyVal := .tuple (values.map .str)

def optionalNames : Option (List String) → PyVal
  | none => .none
  | some values => names values

section

variable (settings : Settings)

def serializePolicy (policy : LLMRequestPolicy) : PyVal := .dict [
  ("allowed_models", optionalNames policy.allowedModels),
  ("allow_paid", .bool policy.allowPaid),
  ("allow_experimental", .bool policy.allowExperimental),
  ("deadline_at", text (policy.deadlineAt.map settings.isoformat)),
  ("purpose", .str policy.purpose),
  ("require_direct", .bool policy.requireDirect),
  ("submit_next", .bool policy.submitNext),
  ("allow_batch", .bool policy.allowBatch),
  ("allow_dispatch_overflow", .bool policy.allowDispatchOverflow),
  ("queue_only", .bool policy.queueOnly),
  ("timeout_class", .str policy.timeoutClass.text),
  ("priority", .num (policy.priority : Nat)),
  ("backup_models", names policy.backupModels),
  ("backup_after_attempts", number (policy.backupAfterAttempts.map fun threshold : Nat => (threshold : ℚ))),
  ("allowed_route_ids", optionalNames policy.allowedRouteIds)]

/-- The capsule as the record holds it once it has been written and read. -/
def DeferredLLMRequest.capsule (request : DeferredLLMRequest) : DeferredRequest where
  messages := request.messages.map PyVal.jsonRoundTrip
  policy := (serializePolicy settings request.policy).jsonRoundTrip
  outputTokenBudget := request.outputTokenBudget
  metadataVersion := request.metadataVersion
  timeout := request.timeout
  maxTokensMode := request.maxTokensMode

end

/-! ## Reading a policy -/

def policyFields : List String :=
  ["allowed_models", "allow_paid", "allow_experimental", "deadline_at", "purpose",
    "require_direct", "submit_next", "allow_batch", "allow_dispatch_overflow", "queue_only",
    "timeout_class", "priority", "backup_models", "backup_after_attempts", "allowed_route_ids"]

/-- `{name: data[name] for name in fields if name in data}`, where `data` may be
a sequence, which has no such items. -/
def policyValues : PyVal → Option (Dict String PyVal)
  | .dict entries => some (entries.filter fun entry => entry.1 ∈ policyFields)
  | .list elements =>
      if policyFields.any fun name => .str name ∈ elements then none else some []
  | .tuple elements =>
      if policyFields.any fun name => .str name ∈ elements then none else some []
  | .str data =>
      if policyFields.any fun name => name.toList <:+: data.toList then none else some []
  | _ => none

def readNames : PyVal → Option (List String)
  | .list elements => elements.mapM PyVal.asStr?
  | .tuple elements => elements.mapM PyVal.asStr?
  | _ => none

/-- Names that may be missing, or `None`. -/
def readOptionalNames : Option PyVal → Option (Option (List String))
  | none => some none
  | some .none => some none
  | some value => (readNames value).map some

def readBackups : Option PyVal → Option (List String)
  | none => some []
  | some value => readNames value

def readFlag (usual : Bool) : Option PyVal → Option Bool
  | none => some usual
  | some (.bool value) => some value
  | some _ => none

/-- A number that is a whole one, and not negative. -/
def natural? : PyVal → Option Nat
  | .num value => if value.den = 1 ∧ 0 ≤ value.num then some value.num.toNat else none
  | _ => none

def readPriority : Option PyVal → Option (Fin 2)
  | none => some 1
  | some value =>
      match natural? value with
      | some 0 => some 0
      | some 1 => some 1
      | _ => none

def readThreshold : Option PyVal → Option (Option Nat)
  | none => some none
  | some .none => some none
  | some value => (natural? value).map some

def readTimeoutClass : Option PyVal → Option TimeoutClass
  | none => some .long
  | some value =>
      if value = .str "fast" then some .fast
      else if value = .str "long" then some .long
      else none

def readPurpose : Option PyVal → Option String
  | none => some ""
  | some value => value.asStr?

section

variable (settings : Settings)

/-- `fromisoformat` of what is true. -/
def readDeadline : Option PyVal → Option (Option Int)
  | none => some none
  | some value =>
      if value.truthy then (value.asStr?.bind settings.fromisoformat).map some
      else some none

def deserializePolicy (data : PyVal) : Option LLMRequestPolicy := do
  let values ← policyValues data
  return {
    allowedModels := ← readOptionalNames (Dict.get? values "allowed_models")
    backupModels := ← readBackups (Dict.get? values "backup_models")
    allowedRouteIds := ← readOptionalNames (Dict.get? values "allowed_route_ids")
    allowPaid := ← readFlag false (Dict.get? values "allow_paid")
    allowExperimental := ← readFlag false (Dict.get? values "allow_experimental")
    requireDirect := ← readFlag false (Dict.get? values "require_direct")
    submitNext := ← readFlag false (Dict.get? values "submit_next")
    allowBatch := ← readFlag true (Dict.get? values "allow_batch")
    allowDispatchOverflow := ← readFlag false (Dict.get? values "allow_dispatch_overflow")
    queueOnly := ← readFlag false (Dict.get? values "queue_only")
    priority := ← readPriority (Dict.get? values "priority")
    backupAfterAttempts := ← readThreshold (Dict.get? values "backup_after_attempts")
    timeoutClass := ← readTimeoutClass (Dict.get? values "timeout_class")
    purpose := ← readPurpose (Dict.get? values "purpose")
    deadlineAt := ← readDeadline settings (Dict.get? values "deadline_at") }

end

/-! ## Reading a record -/

/-- A result, with its attributes as they are read. -/
structure ResultValue where
  task : PyVal
  recipeHash : PyVal
  output : PyVal
  model : PyVal
  routeId : PyVal := .none
  upstreamModel : PyVal := .none
  reasoningLevel : PyVal := .none
  requestParamsHash : PyVal := .none
  providerAttempts : PyVal := .none
  deriving DecidableEq

structure HandleValue where
  task : PyVal
  recipeHash : PyVal
  backend : PyVal
  ref : PyVal
  structuredOutput : PyVal
  model : PyVal
  routeId : PyVal
  owner : PyVal
  inputPerToken : PyVal
  outputPerToken : PyVal
  attemptedRequests : PyVal
  deferredRequest : Option DeferredLLMRequest
  deriving DecidableEq

inductive Value
  | result (result : ResultValue)
  | handle (handle : HandleValue)
  deriving DecidableEq

def momentsContract : String := "moment-extraction"

/-- `tuple(value)` -/
def elementsOf : PyVal → Option (List PyVal)
  | .list elements => some elements
  | .tuple elements => some elements
  | .str data => some (data.toList.map fun char => .str (String.singleton char))
  | .dict entries => some (entries.map fun entry => .str entry.1)
  | _ => none

section

variable (settings : Settings)

/-- The capsule of a pending record, where it has one. -/
def decodeRequest (record : Dict String PyVal) : Option (Option DeferredLLMRequest) :=
  match Dict.get? record "messages", Dict.get? record "policy" with
  | some messages, some policy => do
      let version ← natural? ((Dict.get? record "request_metadata_version").getD (.num 0))
      return some {
        metadataVersion := version
        messages := ← elementsOf messages
        policy := ← deserializePolicy settings policy
        outputTokenBudget :=
          match natural? ((Dict.get? record "output_token_budget").getD .none) with
          | some budget => if 0 < budget then (budget : Int) else 1024
          | none => 1024
        timeout :=
          match Dict.get? record "timeout" with
          | some (.num timeout) => some timeout
          | _ => none
        maxTokensMode :=
          if Dict.get? record "max_tokens_mode" = some (.str "route_max") then some "route_max"
          else none }
  | _, _ => some none

/-- The contract of a handle. Quota-deferred handles of moments were written
without it. -/
def contractOf (record : Dict String PyVal) (task : PyVal) : PyVal :=
  let structuredOutput := (Dict.get? record "structured_output").getD .none
  if !structuredOutput.truthy && task = .str "moment-extraction" then .str momentsContract
  else structuredOutput

def decodeHandle (record : Dict String PyVal) : Option HandleValue := do
  let attemptedRequests := (Dict.get? record "attempted_requests").getD .none
  if attemptedRequests ≠ .none && (natural? attemptedRequests).isNone then none
  else
    let deferred ← decodeRequest settings record
    let task ← Dict.get? record "task"
    return {
      task := task
      recipeHash := ← Dict.get? record "recipe_hash"
      backend := (Dict.get? record "backend").getD (.str "")
      ref := (Dict.get? record "ref").getD (.str "")
      structuredOutput := contractOf record task
      model := (Dict.get? record "model").getD .none
      routeId := (Dict.get? record "route_id").getD .none
      owner := (Dict.get? record "owner").getD .none
      inputPerToken := (Dict.get? record "input_per_token").getD .none
      outputPerToken := (Dict.get? record "output_per_token").getD .none
      attemptedRequests := attemptedRequests
      deferredRequest := deferred }

def decodeRecord : PyVal → Option Value
  | .dict record =>
      if Dict.get? record "status" = some (.str "completed") then do
        return .result {
          task := ← Dict.get? record "task"
          recipeHash := ← Dict.get? record "recipe_hash"
          output := (Dict.get? record "output").getD .none
          model := (Dict.get? record "model").getD .none }
      else if Dict.get? record "status" = some (.str "pending") then
        (decodeHandle settings record).map .handle
      else none
  | _ => none

end

/-! ## Values of the declared types -/

def text? : PyVal → Option (Option String)
  | .none => some none
  | .str value => some (some value)
  | _ => none

def number? : PyVal → Option (Option ℚ)
  | .none => some none
  | .num value => some (some value)
  | _ => none

def integer? : PyVal → Option (Option Int)
  | .none => some none
  | .num value => if value.den = 1 then some (some value.num) else none
  | _ => none

def ResultValue.job? (value : ResultValue) : Option JobResult := do
  return {
    task := ← value.task.asStr?
    recipeHash := ← value.recipeHash.asStr?
    output := value.output
    model := ← text? value.model
    routeId := ← text? value.routeId
    upstreamModel := ← text? value.upstreamModel
    reasoningLevel := ← text? value.reasoningLevel
    requestParamsHash := ← text? value.requestParamsHash
    providerAttempts := ← integer? value.providerAttempts }

section

variable (settings : Settings)

def HandleValue.job? (value : HandleValue) : Option JobHandle := do
  return {
    task := ← value.task.asStr?
    recipeHash := ← value.recipeHash.asStr?
    backend := ← value.backend.asStr?
    ref := ← value.ref.asStr?
    structuredOutput := ← text? value.structuredOutput
    model := ← text? value.model
    routeId := ← text? value.routeId
    owner := ← text? value.owner
    inputPerToken := ← number? value.inputPerToken
    outputPerToken := ← number? value.outputPerToken
    attemptedRequests := ← integer? value.attemptedRequests
    deferredRequest := value.deferredRequest.map (·.capsule settings) }

def Value.job? : Value → Option Job
  | .result value => value.job?.map .result
  | .handle value => (value.job? settings).map .handle

/-- The settings whose reading of records is the registry's own. -/
def Settings.reading : Settings :=
  { settings with decodeRecord := fun data => (Deferred.decodeRecord settings data).bind (·.job? settings) }

/-- `look_up_deferred` -/
def lookUpDeferred (recipeHash : String) : Calls (Option Value) := do
  let (data, _) ← readJson (deferredKey recipeHash)
  return Deferred.decodeRecord settings data

end

end Deferred

end CityPods.Compute

/-! ## Calls that spare an object

The parts of the registry's calls that leave an object alone.
-/

namespace CityPods.Compute

open Foundation
open Foundation.LockedRecords.Session (Sparing sparing_pure sparing_now)

namespace Deferred

variable {settings : Settings} {spared : String} {α : Type}

theorem sparing_readJson (key : String) : Sparing spared (readJson key) := by
  have found : Sparing spared (LockedRecords.Session.get Error.storage key : Calls _) :=
    LockedRecords.Session.sparing_get key
  exact found.bind fun _ => sparing_pure _

theorem sparing_writeJson {key : String} (other : key ≠ spared) (value : PyVal) :
    Sparing spared (writeJson key value) :=
  LockedRecords.Session.sparing_put other _

theorem sparing_delete {key : String} (other : key ≠ spared) (judged : Option (Body × ETag)) :
    Sparing spared (delete key judged) :=
  LockedRecords.Session.sparing_delete other judged

theorem sparing_writePointerKeys (recipeHash : String) {keys : List String}
    (others : ∀ key ∈ keys, key ≠ spared) : Sparing spared (writePointerKeys recipeHash keys) := by
  induction keys with
  | nil => exact sparing_pure ()
  | cons key rest induction =>
      refine (sparing_writeJson (others key List.mem_cons_self) _).attempt.bind fun _ => ?_
      exact induction fun key member => others key (List.mem_cons_of_mem _ member)

theorem sparing_deletePointerKeys {keys : List String} (others : ∀ key ∈ keys, key ≠ spared) :
    Sparing spared (deletePointerKeys keys) := by
  induction keys with
  | nil => exact sparing_pure ()
  | cons key rest induction =>
      refine (sparing_delete (others key List.mem_cons_self) _).attempt.bind fun _ => ?_
      exact induction fun key member => others key (List.mem_cons_of_mem _ member)

theorem sparing_lock {body : Calls α} (sparing : Sparing spared body) (recipeHash : String)
    (tokens : List String) : Sparing spared (deferredRecordLock recipeHash tokens body) :=
  sparing_now.bind fun _ => LockedRecords.Session.sparing_acquireUntil sparing tokens

end Deferred

end CityPods.Compute
