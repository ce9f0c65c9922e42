import CityPods.Compute.Deferred
import CityPods.Foundation.OneByOne

/-! # The audit of failures

The marker that keeps a recipe from being submitted again without end: what it
permits, the correction that it records once, and the calls that write it, one
after the other. Each stored record is a generation of its own.
-/

namespace CityPods.Compute

open Foundation
open Foundation.LockedRecords (Ledger notedWorld)
open Foundation.Tasks (Config OneByOne)

namespace Deferred

/-- `int(marker.get("failure_count", 0))` -/
def failureCount? : PyVal → Option Int
  | .dict entries => toInt? ((Dict.get? entries "failure_count").getD (.num 0))
  | _ => some 0

section

variable (settings : Settings)

def terminalRecoveryGeneration (context marker : PyVal) : Option String :=
  if field marker "status" ≠ .str "structural_blocked" then none
  else
    match field (field marker "recovery_context") "route_generations",
        field context "route_generations" with
    | .dict previous, .dict current =>
        if current.any fun entry => !((Dict.get? previous entry.1).getD .none).equals entry.2 then
          some (settings.digest (.dict current))
        else none
    | _, _ => none

def terminalFailureRetryAllowed (marker context : PyVal) : Bool :=
  if !isMapping marker then true
  else if field marker "status" = .str "exhausted" then false
  else if field marker "status" = .str "structural_blocked" then
    match failureCount? marker with
    | none => false
    | some count =>
        count < maxTerminalFailureRetries && context.truthy &&
          (terminalRecoveryGeneration settings context marker).any (· ≠ "")
  else
    match failureCount? marker with
    | none => true
    | some count => count < maxTerminalFailureRetries

/-- Only the ceiling, whatever the routes. -/
def terminalFailureBudgetExhausted (marker : PyVal) : Bool :=
  if !isMapping marker then false
  else if field marker "status" = .str "exhausted" then true
  else
    match failureCount? marker with
    | none => false
    | some count => maxTerminalFailureRetries ≤ count

def schemaCorrectionAttempted (marker : PyVal) : Bool :=
  (field marker "schema_correction_attempted").truthy

def correctionMarker (handle : JobHandle) (prior : PyVal) (failure : Failure) (clock : Int) :
    Dict String PyVal := [
  ("recipe_hash", .str handle.recipeHash),
  ("task", .str handle.task),
  ("failure_count", match prior with
    | .dict entries => (Dict.get? entries "failure_count").getD (.num 0)
    | _ => .num 0),
  ("first_failed_at", match field prior "first_failed_at" with
    | .str first => .str first
    | _ => .str (settings.isoformat clock)),
  ("last_failed_at", .str (settings.isoformat clock)),
  ("last_error_type", .str failure.typeName),
  ("last_error", .str (reason failure)),
  ("schema_correction_attempted", .bool true),
  ("status", .str "corrective_retry_submitted")]

def recordSchemaCorrection (handle : JobHandle) (failure : Failure) (givenNow : Option Int) :
    Calls Unit := do
  let clock ← match givenNow with
    | some clock => pure clock
    | none => now
  let (prior, _) ← readJson (deferredFailureKey handle.recipeHash)
  writeJson (deferredFailureKey handle.recipeHash)
    (.dict (correctionMarker settings handle prior failure clock))

end

abbrev Stored := Store String Body

section

variable (recipeHash : String)

def markerOf (store : Stored) : PyVal := valueOf (store.object (deferredFailureKey recipeHash))

def generation (store : Stored) : Option ETag := (store.object (deferredKey recipeHash)).map Prod.snd

def charged (store : Stored) : Int := (failureCount? (markerOf recipeHash store)).getD 0

/-- The generations that a failure was charged to, the latest first, and how many
corrections were recorded. -/
structure Charges where
  generations : List ETag
  corrections : Nat
  deriving DecidableEq

/-- The change writes a marker that says the correction was submitted. -/
def recordsCorrection (store after : Stored) : Bool :=
  (after.object (deferredFailureKey recipeHash)).map Prod.snd ≠
      (store.object (deferredFailureKey recipeHash)).map Prod.snd &&
    field (markerOf recipeHash after) "status" = .str "corrective_retry_submitted"

def noteChange (store after : Stored) (charges : Charges) : Charges where
  generations :=
    if charged recipeHash store < charged recipeHash after then
      (generation recipeHash store).toList ++ charges.generations
    else charges.generations
  corrections :=
    if recordsCorrection recipeHash store after then charges.corrections + 1
    else charges.corrections

end

inductive RetryCall
  | registry (call : Call)
  | recordSchemaCorrection (handle : JobHandle) (failure : Failure) (givenNow : Option Int)

section

variable (settings : Settings) (recipeHash : String)

def RetryCall.session : RetryCall → Calls Outcome
  | .registry call => call.session settings recipeHash
  | .recordSchemaCorrection handle failure givenNow => do
      Deferred.recordSchemaCorrection settings handle failure givenNow
      return .written

def RetryCall.Concerns : RetryCall → Prop
  | .registry (.discardLegacyMomentsRequest _ expected) => expected.recipeHash = recipeHash
  | .registry (.discardTerminalFailure _ snapshot handle ..) =>
      handle.recipeHash = recipeHash ∧ ∀ entry ∈ snapshot, entry.key = deferredKey recipeHash
  | .registry (.pruneExpiredDeferredSnapshot snapshot ..) =>
      ∀ entry ∈ snapshot, entry.key = deferredKey recipeHash
  | .registry _ => True
  | .recordSchemaCorrection handle .. => handle.recipeHash = recipeHash

def RetryCall.permitted (store : Stored) : RetryCall → Bool
  | .registry (.discardTerminalFailure _ _ _ _ _ structural _) => !structural
  | .registry _ => true
  | .recordSchemaCorrection .. => !schemaCorrectionAttempted (markerOf recipeHash store)

def findsRecord (store : Stored) (snapshot : List SnapshotEntry) (handle : JobHandle) : Bool :=
  (markTerminalFailure handle.recipeHash true snapshot).1.any fun entry =>
    isMapping entry.data && field entry.data "ref" = .str handle.ref &&
      field entry.data "backend" = .str handle.backend &&
      valueOf (store.object (deferredKey recipeHash)) = entry.data

def findsResult (store : Stored) (expected : JobResult) : Bool :=
  let data := valueOf (store.object (deferredKey recipeHash))
  field data "status" = .str "completed" && settings.decodeRecord data = some (.result expected) &&
    field (markerOf recipeHash store) "invalid_completed_digest" ≠ .str (settings.digest data)

def RetryCall.charges (store : Stored) : RetryCall → Bool
  | .registry (.discardTerminalFailure _ snapshot handle ..) =>
      findsRecord recipeHash store snapshot handle
  | .registry (.discardCompletedResult _ expected failure) =>
      failure.isSome && findsResult settings recipeHash store expected
  | _ => false

def RetryCall.marks (store : Stored) : RetryCall → Bool
  | .recordSchemaCorrection .. => true
  | call => call.charges settings recipeHash store

/-- The marker says that the budget is exhausted, which the count does not. -/
def exhaustedEarly (store : Stored) : Bool :=
  field (markerOf recipeHash store) "status" = .str "exhausted" &&
    charged recipeHash store < maxTerminalFailureRetries

/-- Whether the marker that the call writes says that the budget is exhausted. -/
def RetryCall.exhausts (store : Stored) : RetryCall → Bool
  | .registry (.discardTerminalFailure _ _ _ _ exhausted ..) =>
      exhausted || maxTerminalFailureRetries ≤ charged recipeHash store + 1
  | .registry _ => maxTerminalFailureRetries ≤ charged recipeHash store + 1
  | .recordSchemaCorrection .. => false

/-- No call takes back a budget that is exhausted early, and none charges a
generation that an interrupted call has charged already. -/
structure RetryCall.Meets (store : Stored) (charges : Charges) (call : RetryCall) : Prop where
  exhausts : call.marks settings recipeHash store = true → exhaustedEarly recipeHash store = true →
    call.exhausts recipeHash store = true
  uncharged : call.charges settings recipeHash store = true →
    ∀ charged ∈ generation recipeHash store, charged ∉ charges.generations

end

end Deferred

end CityPods.Compute
