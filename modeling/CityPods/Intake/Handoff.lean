import CityPods.Foundation.Tasks

/-! # Handing city requests to GitHub

The intake worker's calls for one fingerprint: form posts and rounds of the
scheduled retry. Each database statement and each HTTP call is one operation;
it may throw without effect, or take effect while its reply is lost.
-/

namespace CityPods.Intake

open Foundation

inductive RequestStatus
  | pending
  | created
  deriving DecidableEq

/-- The row of the fingerprint in `city_requests`. -/
structure CityRequest where
  payloadJson : Option String
  requestMarker : Option String
  status : RequestStatus := .pending
  issueNumber : Option Nat := none
  deriving DecidableEq

/-- An issue created for the fingerprint, with the marker in its body. -/
structure Issue where
  number : Nat
  marker : String
  deriving DecidableEq

structure IntakeState where
  request : Option CityRequest := none
  issues : List Issue := []
  nextNumber : Nat := 1
  deriving DecidableEq

inductive IntakeOp
  | insertRequest (payloadJson marker : String)
  | selectRequest
  | selectPending
  | githubAppToken
  | searchIssues (marker : String)
  | postIssue (marker : String)
  | recordIssue (number : Nat)
  | recordOrigin (number : Nat)
  | notifyDiscord (number : Nat)
  | sendEmail (number : Nat)
  | recordMessage (number : Nat) (messageId : String)
  | markPending
  deriving DecidableEq

/-- What an operation returns where it does not throw. -/
def IntakeOp.Value : IntakeOp → Type
  | insertRequest _ _ => Bool
  | selectRequest => Option CityRequest
  | selectPending => Bool
  | searchIssues _ => Option Issue
  | postIssue _ => Issue
  | notifyDiscord _ => Option String
  | _ => Unit

abbrev intake : Interface := ⟨IntakeOp, fun op => Option op.Value⟩

inductive HandoffResponse
  | duplicate (issueNumber : Option Nat)
  | created (issueNumber : Nat)
  | failed
  | thrown
  | idle
  deriving DecidableEq

/-- The rest of the `try` block, or its `catch` clause. -/
def orElse (caught : Task intake HandoffResponse) (rest : α → Task intake HandoffResponse) :
    Option α → Task intake HandoffResponse
  | some value => rest value
  | none => caught

/-- The `catch` clause: the row is pending again. -/
def handoffFailed : Task intake HandoffResponse :=
  .perform .markPending (orElse (.done .thrown) fun _ => .done .failed)

def attempt (op : IntakeOp) (rest : op.Value → Task intake HandoffResponse) :
    Task intake HandoffResponse :=
  .perform op (orElse handoffFailed rest)

/-- `Promise.allSettled`: what either notification throws is dropped. -/
def notify (number : Nat) : Task intake HandoffResponse :=
  .perform (.notifyDiscord number) fun discord =>
    .perform (.sendEmail number) fun _ =>
      match discord with
      | some (some messageId) =>
          attempt (.recordMessage number messageId) fun _ => .done (.created number)
      | _ => .done (.created number)

def recordAndNotify (issue : Issue) : Task intake HandoffResponse :=
  attempt (.recordIssue issue.number) fun _ =>
    attempt (.recordOrigin issue.number) fun _ => notify issue.number

def postNewIssue (marker : String) : Task intake HandoffResponse :=
  attempt (.postIssue marker) recordAndNotify

def findOrPost (marker : String) : Task intake HandoffResponse :=
  attempt (.searchIssues marker) fun
    | some issue => recordAndNotify issue
    | none => postNewIssue marker

def createIssue (marker : String) : Task intake HandoffResponse :=
  attempt .githubAppToken fun _ =>
    if marker = "" then postNewIssue marker else findOrPost marker

/-- A row that is still to be handed over goes on with its own marker. -/
def resumeRequest : Option CityRequest → Task intake HandoffResponse
  | none => .done (.duplicate none)
  | some existing =>
      match existing.issueNumber, existing.status, existing.payloadJson.filter (· ≠ ""),
        existing.requestMarker.filter (· ≠ "") with
      | none, .pending, some _, some marker => createIssue marker
      | issueNumber, _, _, _ => .done (.duplicate issueNumber)

def handoffSubmission (payloadJson requestMarker : String) : Task intake HandoffResponse :=
  attempt (.insertRequest payloadJson requestMarker) fun (changed : Bool) =>
    if changed then createIssue requestMarker else attempt .selectRequest resumeRequest

/-- A round of the scheduled retry, as far as it comes to this row. -/
def retryPendingSubmissions (payloadJson requestMarker : String) : Task intake HandoffResponse :=
  .perform .selectPending (orElse (.done .thrown) fun (included : Bool) =>
    if included then handoffSubmission payloadJson requestMarker else .done .idle)

/-- What becomes of an operation. -/
inductive Fate
  | replies
  | refused
  | lost
  deriving DecidableEq

structure IntakeChoice where
  fate : Fate := .replies
  /-- Whether the row is among the ten that the retry reads. -/
  included : Bool := true
  messageId : Option String := none

/-- An operation that is carried out. -/
def IntakeState.perform (state : IntakeState) (choice : IntakeChoice) :
    (op : IntakeOp) → op.Value × IntakeState
  | .insertRequest payloadJson marker =>
      match state.request with
      | some _ => (false, state)
      | none => (true, { state with request := some ⟨some payloadJson, some marker, .pending, none⟩ })
  | .selectRequest => (state.request, state)
  | .selectPending =>
      (choice.included && state.request.any fun request => request.status = .pending, state)
  | .githubAppToken => ((), state)
  | .searchIssues marker => (state.issues.find? fun issue => issue.marker = marker, state)
  | .postIssue marker =>
      (⟨state.nextNumber, marker⟩,
        { state with
          issues := state.issues ++ [⟨state.nextNumber, marker⟩]
          nextNumber := state.nextNumber + 1 })
  | .recordIssue number =>
      ((), { state with
        request := state.request.map fun request =>
          { request with issueNumber := some number, status := .created } })
  | .recordOrigin _ => ((), state)
  | .notifyDiscord _ => (choice.messageId, state)
  | .sendEmail _ => ((), state)
  | .recordMessage _ _ => ((), state)
  | .markPending =>
      ((), { state with request := state.request.map fun request =>
        { request with status := .pending } })

/-- Other issues of the repository take numbers too. -/
def intakeWorld : World intake where
  State := IntakeState
  Choice := IntakeChoice
  answer state op choice :=
    let performed := state.perform choice op
    match choice.fate with
    | .replies => some (some performed.1, performed.2)
    | .refused => some (none, state)
    | .lost => some (none, performed.2)
  drift state _ := some { state with nextNumber := state.nextNumber + 1 }

inductive IntakeCall
  | submit (payloadJson requestMarker : String)
  | retry (payloadJson requestMarker : String)

/-- A call draws its marker beforehand; a UUID is not empty. -/
def intakeCalls : Activity intakeWorld where
  Call := IntakeCall
  Result := HandoffResponse
  task
    | .submit payloadJson requestMarker => handoffSubmission payloadJson requestMarker
    | .retry payloadJson requestMarker => retryPendingSubmissions payloadJson requestMarker
  mayStart _
    | .submit _ requestMarker => requestMarker ≠ ""
    | .retry _ requestMarker => requestMarker ≠ ""

end CityPods.Intake
