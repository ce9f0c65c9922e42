import CityPods.Foundation.Sha
import CityPods.Foundation.SqlTruth
import CityPods.Intake.Handoff

/-! # Lifecycle notices

The intake worker's notices about an issue, by mail and on Discord. A column of
`request_origins` holds the key of the last notice of each channel, or a claim by
the call that is sending one. The two channels of a call share the row they have
read and write a column each; a call is followed on one channel.
-/

namespace CityPods.Intake

open Foundation

/-- A channel and its column. -/
inductive NoticeChannel
  | email
  | discord
  deriving DecidableEq

/-- A row of `request_origins`, with the address of the request it belongs to. -/
structure RequestOrigin where
  issueNumber : Int
  discordMessageId : Option String := none
  emailNotificationKey : Option String := none
  discordNotificationKey : Option String := none
  email : Option String := none
  deriving DecidableEq

namespace RequestOrigin

def notificationKey (origin : RequestOrigin) : NoticeChannel → Option String
  | .email => origin.emailNotificationKey
  | .discord => origin.discordNotificationKey

def setNotificationKey (origin : RequestOrigin) (value : Option String) :
    NoticeChannel → RequestOrigin
  | .email => { origin with emailNotificationKey := value }
  | .discord => { origin with discordNotificationKey := value }

end RequestOrigin

/-- The row that the intake code inserts, once it has the message's id. -/
def createdOrigin (issueNumber : Int) (discordMessageId email : Option String) : RequestOrigin where
  issueNumber := issueNumber
  discordMessageId := discordMessageId
  email := email

/-- The settings of the worker; an absent one is empty. -/
structure NoticeEnv where
  resendApiKey : String := ""
  mailFrom : String := ""
  discordWebhookUrl : String := ""

/-- Whether a call notifies the channel of the row. -/
def NoticeEnv.notifies (env : NoticeEnv) (origin : RequestOrigin) : NoticeChannel → Bool
  | .email => origin.email.any (· ≠ "") && env.resendApiKey ≠ "" && env.mailFrom ≠ ""
  | .discord => origin.discordMessageId.any (· ≠ "") && env.discordWebhookUrl ≠ ""

/-- The payload's fields, read by `Number` and `String`; the number is absent where
it is not an integer. -/
structure StatusPayload where
  issueNumber : Option Int
  status : String
  issueUrl : String
  targetUrl : String

structure StatusUpdate where
  issueNumber : Int
  kind : String
  issueUrl : String
  targetUrl : String
  deriving DecidableEq

def statusLabels : List (String × String) :=
  [("evidence_ready", "Research is ready for maintainer review"),
    ("batched_for_review", "The request is in a maintainer-review PR"),
    ("applied", "The request was merged and is being published"),
    ("needs_more_information", "More information is needed"),
    ("research_only", "An unsupported-provider finding was recorded"),
    ("evidence_expired", "The 90-day evidence window expired; fresh research is queued")]

/-- Names that every object answers to. -/
def objectPrototype : List String :=
  ["constructor", "toString", "toLocaleString", "valueOf", "hasOwnProperty", "isPrototypeOf",
    "propertyIsEnumerable", "__proto__", "__defineGetter__", "__defineSetter__",
    "__lookupGetter__", "__lookupSetter__"]

def knownStatus (kind : String) : Bool :=
  kind ∈ statusLabels.map Prod.fst || kind ∈ objectPrototype

/-- `slice(0, units)` of a string of UTF-16 code units. Half a character that is
left at the end is encoded as the replacement character. -/
def sliceUnits : Nat → List Char → List Char
  | 0, _ => []
  | _, [] => []
  | 1, char :: _ => [if char.toNat < 0x10000 then char else '\uFFFD']
  | units + 2, char :: rest =>
      char :: if char.toNat < 0x10000 then sliceUnits (units + 1) rest else sliceUnits units rest

def slice (units : Nat) (text : String) : String := String.ofList (sliceUnits units text.toList)

/-- The payload as `handoffStatus` reads it, unless it throws. -/
def readStatus (input : Option StatusPayload) : Option StatusUpdate :=
  input.bind fun payload =>
    let issueUrl := slice 1000 payload.issueUrl
    match payload.issueNumber with
    | none => none
    | some issueNumber =>
        if issueNumber < 1 ∨ knownStatus payload.status = false ∨
            ¬ "https://github.com/".toList <+: issueUrl.toList then none
        else some ⟨issueNumber, payload.status, issueUrl, slice 1000 payload.targetUrl⟩

def StatusUpdate.key (update : StatusUpdate) : String :=
  sha256Hex (update.kind ++ "|" ++ update.issueUrl ++ "|" ++ update.targetUrl)

def pendingKey (key : String) : String := "pending:" ++ key

inductive NoticeOp
  | selectOrigin (issueNumber : Int)
  | claimNotice (channel : NoticeChannel) (issueNumber : Int) (pending key : String)
  | sendNotice (channel : NoticeChannel) (update : StatusUpdate) (key : String)
  | settleNotice (channel : NoticeChannel) (issueNumber : Int) (value : Option String)
      (pending : String)
  deriving DecidableEq

/-- What an operation returns where it does not throw. -/
def NoticeOp.Value : NoticeOp → Type
  | .selectOrigin _ => Option RequestOrigin
  | .claimNotice _ _ _ _ => Bool
  | _ => Unit

abbrev notices : Interface := ⟨NoticeOp, fun op => Option op.Value⟩

inductive StatusResponse
  | returned
  | thrown
  deriving DecidableEq

def orThrow (rest : α → Task notices StatusResponse) : Option α → Task notices StatusResponse
  | some value => rest value
  | none => .done .thrown

/-- The `catch` clause: the column gets back what was read of it. -/
def rollBack (channel : NoticeChannel) (origin : RequestOrigin) (update : StatusUpdate)
    (pending : String) : Task notices StatusResponse :=
  .perform (.settleNotice channel update.issueNumber
    ((origin.notificationKey channel).filter (· ≠ "")) pending) fun _ => .done .thrown

def sendClaimed (channel : NoticeChannel) (origin : RequestOrigin) (update : StatusUpdate)
    (key pending : String) : Task notices StatusResponse :=
  .perform (.sendNotice channel update key) fun
    | none => rollBack channel origin update pending
    | some _ => .perform (.settleNotice channel update.issueNumber (some key) pending) fun
        | none => rollBack channel origin update pending
        | some _ => .done .returned

def notifyChannel (channel : NoticeChannel) (origin : RequestOrigin) (update : StatusUpdate) :
    Task notices StatusResponse :=
  if origin.notificationKey channel = some update.key then .done .returned
  else
    .perform (.claimNotice channel update.issueNumber (pendingKey update.key) update.key)
      (orThrow fun (claimed : Bool) =>
        if claimed then sendClaimed channel origin update update.key (pendingKey update.key)
        else .done .returned)

def notifyConfigured (env : NoticeEnv) (channel : NoticeChannel) (update : StatusUpdate) :
    Option RequestOrigin → Task notices StatusResponse
  | none => .done .returned
  | some origin =>
      if env.notifies origin channel then notifyChannel channel origin update else .done .returned

def handoffStatus (env : NoticeEnv) (channel : NoticeChannel) (input : Option StatusPayload) :
    Task notices StatusResponse :=
  match readStatus input with
  | none => .done .thrown
  | some update =>
      .perform (.selectOrigin update.issueNumber) (orThrow (notifyConfigured env channel update))

/-- A notice that a call has tried to send, and whether the call saw it succeed. -/
structure Notice where
  channel : NoticeChannel
  key : String
  succeeded : Bool
  deriving DecidableEq

structure NoticeState where
  origin : Option RequestOrigin
  sends : List Notice := []

def claimable (column : Option String) (key : String) : Sql.Truth :=
  Sql.and (Sql.or (Sql.isNull column) (Sql.not (Sql.likeStart "pending:" column)))
    (Sql.not (Sql.eq column (some key)))

/-- `UPDATE request_origins SET … WHERE issue_number = … AND …`: the changed row. -/
def NoticeState.update (state : NoticeState) (channel : NoticeChannel) (issueNumber : Int)
    (clause : Option String → Sql.Truth) (value : Option String) : Option RequestOrigin :=
  state.origin.bind fun origin =>
    if origin.issueNumber = issueNumber ∧ Sql.Holds (clause (origin.notificationKey channel)) then
      some (origin.setNotificationKey value channel)
    else none

structure NoticeChoice where
  database : Fate := .replies
  delivery : Fate := .replies

/-- An operation that is carried out. -/
def NoticeState.perform (state : NoticeState) (delivery : Fate) :
    (op : NoticeOp) → op.Value × NoticeState
  | .selectOrigin issueNumber =>
      (state.origin.filter fun origin => origin.issueNumber = issueNumber, state)
  | .claimNotice channel issueNumber pending key =>
      match state.update channel issueNumber (claimable · key) (some pending) with
      | some origin => (true, { state with origin := some origin })
      | none => (false, state)
  | .sendNotice channel _ key =>
      ((), { state with sends := state.sends ++ [⟨channel, key, delivery = .replies⟩] })
  | .settleNotice channel issueNumber value pending =>
      match state.update channel issueNumber (Sql.eq · (some pending)) value with
      | some origin => ((), { state with origin := some origin })
      | none => ((), state)

def NoticeOp.sends : NoticeOp → Bool
  | .sendNotice _ _ _ => true
  | _ => false

def NoticeChoice.fate (choice : NoticeChoice) (op : NoticeOp) : Fate :=
  if op.sends then choice.delivery else choice.database

/-- A notice that fails has been tried; a statement that is refused has no effect. -/
def noticeWorld : World notices where
  State := NoticeState
  Choice := NoticeChoice
  answer state op choice :=
    let performed := state.perform choice.delivery op
    match choice.fate op with
    | .replies => some (some performed.1, performed.2)
    | .refused => some (none, if op.sends then performed.2 else state)
    | .lost => some (none, performed.2)
  drift _ _ := none

structure StatusCall where
  channel : NoticeChannel
  input : Option StatusPayload

def statusCalls (env : NoticeEnv) : Activity noticeWorld where
  Call := StatusCall
  Result := StatusResponse
  task call := handoffStatus env call.channel call.input
  mayStart _ _ := true

end CityPods.Intake
