import CityPods.Foundation.Interruptions
import CityPods.Intake.Handoff
import Mathlib.Data.List.Sort

/-! # The queue of city requests

The intake worker's database with all its requests: the calls for one fingerprint,
each on its own row, and the scheduled retry, which takes up the ten rows that have
been pending longest.
-/

namespace CityPods.Intake.Queue

open Foundation

/-- A row of `city_requests`. -/
structure RequestRow where
  fingerprint : String
  request : CityRequest
  updatedAt : Nat
  deriving DecidableEq

/-- A row of `request_origins`. -/
structure OriginRow where
  issueNumber : Nat
  discordMessageId : Option String := none
  deriving DecidableEq

structure QueueState where
  requests : List RequestRow := []
  origins : List OriginRow := []
  issues : List Issue := []
  nextNumber : Nat := 1
  deriving DecidableEq

def RequestRow.isPending (row : RequestRow) : Bool := row.request.status = .pending

namespace QueueState

def find (state : QueueState) (fingerprint : String) : Option RequestRow :=
  state.requests.find? fun row => row.fingerprint = fingerprint

/-- `UPDATE city_requests SET … WHERE fingerprint = …`. -/
def update (state : QueueState) (fingerprint : String) (now : Nat)
    (change : CityRequest → CityRequest) : QueueState where
  requests := state.requests.map fun row =>
    if row.fingerprint = fingerprint then
      { row with request := change row.request, updatedAt := now }
    else row
  origins := state.origins
  issues := state.issues
  nextNumber := state.nextNumber

/-- `WHERE status = 'pending' ORDER BY updated_at LIMIT 10`. -/
def oldestPending (state : QueueState) : List RequestRow :=
  ((state.requests.filter RequestRow.isPending).insertionSort fun first second =>
    first.updatedAt ≤ second.updatedAt).take 10

end QueueState

inductive QueueOp
  | selectPending
  | onRow (fingerprint : String) (op : IntakeOp)
  deriving DecidableEq

def QueueOp.Value : QueueOp → Type
  | .selectPending => List (Option String)
  | .onRow _ op => op.Value

abbrev queue : Interface := ⟨QueueOp, fun op => Option op.Value⟩

def onRow {α : Type} (fingerprint : String) : Task intake α → Task queue α
  | .done result => .done result
  | .perform op next => .perform (.onRow fingerprint op) fun reply => onRow fingerprint (next reply)

/-- A submission's text. -/
structure Payload where
  json : String
  given : json ≠ ""

/-- A UUID. -/
structure Marker where
  text : String
  given : text ≠ ""

/-- A row without a payload throws; what a row throws is logged. -/
def retryRow (fingerprintOf : String → String) (marker : Marker) :
    Option String → Task queue HandoffResponse
  | none => .done .thrown
  | some json => onRow (fingerprintOf json) (handoffSubmission json marker.text)

def retryRows (fingerprintOf : String → String) (markers : Nat → Marker) :
    Nat → List (Option String) → Task queue HandoffResponse
  | _, [] => .done .idle
  | index, payloadJson :: rest =>
      (retryRow fingerprintOf (markers index) payloadJson).bind fun _ =>
        retryRows fingerprintOf markers (index + 1) rest

def retryPendingSubmissions (fingerprintOf : String → String) (markers : Nat → Marker) :
    Task queue HandoffResponse :=
  .perform .selectPending fun
    | none => .done .thrown
    | some rows => retryRows fingerprintOf markers 0 rows

structure QueueChoice where
  fate : Fate := .replies
  now : Nat := 0
  messageId : Option String := none

/-- An operation that is carried out. -/
def QueueState.perform (state : QueueState) (choice : QueueChoice) :
    (op : QueueOp) → op.Value × QueueState
  | .selectPending => (state.oldestPending.map fun row => row.request.payloadJson, state)
  | .onRow fingerprint (.insertRequest payloadJson marker) =>
      match state.find fingerprint with
      | some _ => (false, state)
      | none =>
          let row : RequestRow :=
            ⟨fingerprint, ⟨some payloadJson, some marker, .pending, none⟩, choice.now⟩
          (true, { state with requests := state.requests ++ [row] })
  | .onRow fingerprint .selectRequest => ((state.find fingerprint).map RequestRow.request, state)
  | .onRow fingerprint .selectPending => ((state.find fingerprint).any RequestRow.isPending, state)
  | .onRow _ .githubAppToken => ((), state)
  | .onRow _ (.searchIssues marker) => (state.issues.find? fun issue => issue.marker = marker, state)
  | .onRow _ (.postIssue marker) =>
      (⟨state.nextNumber, marker⟩,
        { state with
          issues := state.issues ++ [⟨state.nextNumber, marker⟩]
          nextNumber := state.nextNumber + 1 })
  | .onRow fingerprint (.recordIssue number) =>
      ((), state.update fingerprint choice.now fun request =>
        { request with issueNumber := some number, status := .created })
  | .onRow _ (.recordOrigin number) =>
      let others := state.origins.filter fun origin => origin.issueNumber ≠ number
      ((), { state with origins := others ++ [⟨number, none⟩] })
  | .onRow _ (.notifyDiscord _) => (choice.messageId, state)
  | .onRow _ (.sendEmail _) => ((), state)
  | .onRow _ (.recordMessage number messageId) =>
      ((), { state with
        origins := state.origins.map fun origin =>
          if origin.issueNumber = number then { origin with discordMessageId := some messageId }
          else origin })
  | .onRow fingerprint .markPending =>
      ((), state.update fingerprint choice.now fun request => { request with status := .pending })

abbrev queueWorld : World queue where
  State := QueueState
  Choice := QueueChoice
  answer state op choice :=
    let performed := state.perform choice op
    match choice.fate with
    | .replies => some (some performed.1, performed.2)
    | .refused => some (none, state)
    | .lost => some (none, performed.2)
  drift _ _ := none

inductive QueueCall
  | submit (payload : Payload) (marker : Marker)
  | retry (markers : Nat → Marker)

def QueueCall.isRetry : QueueCall → Bool
  | .retry _ => true
  | .submit _ _ => false

/-- A payload's fingerprint is a digest of some of its fields. -/
def queueCalls (fingerprintOf : String → String) : Activity queueWorld where
  Call := QueueCall
  Result := HandoffResponse
  task
    | .submit payload marker =>
        onRow (fingerprintOf payload.json) (handoffSubmission payload.json marker.text)
    | .retry markers => retryPendingSubmissions fingerprintOf markers
  mayStart _ _ := true

end CityPods.Intake.Queue
