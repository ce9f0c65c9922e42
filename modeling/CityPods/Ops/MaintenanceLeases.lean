import Mathlib.Data.Int.Order.Basic
import Mathlib.Data.Rat.Defs
import CityPods.Foundation.Sessions
import CityPods.Foundation.Texts

/-! # Maintenance leases

Compare-and-swap mutexes of workflows that repair shared durable state: one
coordination object a key. Every clock reading and storage call is an operation
of its own. Instants are microseconds; an object is what its readers parse it
to.
-/

namespace CityPods.Ops

open Foundation
open Foundation.Whitespace (isBlank)

namespace MaintenanceLeases

/-- The exceptions of the module, the two a storage call can raise among them. -/
inductive Error
  | valueError (text : String)
  | busy (text : String)
  | unavailable (text : String)
  | casConflict
  | storage
  deriving DecidableEq, Repr

def raised : Objects.Failure → Error
  | .conflict => .casConflict
  | .failed => .storage

/-! ## The lease object -/

/-- The fields of a JSON object; a field that is missing or of another type is
`none`. -/
structure Payload where
  state : Option String
  owner : Option String
  token : Option String
  expiresAt : Option Int
  deriving DecidableEq, Repr

inductive Data
  | lease (payload : Payload)
  | corrupt
  deriving DecidableEq, Repr

def held : String := "held"

def released : String := "released"

def encode (owner token : String) (expiresAt : Int) (state : String) : Data :=
  .lease ⟨some state, some owner, some token, some expiresAt⟩

/-- The holder a refused claim is told about. -/
def Payload.holder (payload : Payload) : String :=
  match payload.owner with
  | none => "unknown"
  | some owner => if owner = "" then "unknown" else owner

def activeOwner (data : Data) (now : Int) : Option String :=
  match data with
  | .corrupt => none
  | .lease payload =>
      if payload.state ≠ some held then none
      else
        match payload.expiresAt with
        | none => none
        | some expiresAt => if expiresAt > now then some payload.holder else none

/-- The quotient, rounded to the nearest integer; a half goes to the even one. -/
def divideHalfEven (value : Int) (divisor : Nat) : Int :=
  let below := value / divisor
  let twice := 2 * (value % divisor)
  if twice < divisor then below
  else if (divisor : Int) < twice then below + 1
  else if below % 2 = 0 then below
  else below + 1

def timedelta (seconds : ℚ) : Int := divideHalfEven (seconds.num * 1000000) seconds.den

/-! ## An owned lease -/

abbrev Calls (α : Type) : Type := Objects.Session String Data Int Error α

def now : Calls Int := Objects.Session.now

def getBytes (key : String) : Calls (Option (Data × ETag)) := Objects.Session.getBytes raised key

def putCas (key : String) (data : Data) (condition : Condition) : Calls ETag :=
  Objects.Session.putBytes raised key data condition

structure MaintenanceLease where
  key : String
  owner : String
  token : String
  etag : ETag
  ttlSeconds : ℚ
  deriving DecidableEq, Repr

namespace MaintenanceLease

variable (lease : MaintenanceLease)

def disappeared : Error := .unavailable s!"maintenance lease disappeared: {lease.key}"

def corrupt : Error := .unavailable s!"maintenance lease is corrupt: {lease.key}"

def lost : Error := .busy s!"maintenance lease is no longer held by {lease.owner}"

/-- The object is the lease's own and has not expired. -/
def owns (payload : Payload) (expiresAt now : Int) : Bool :=
  payload.state == some held && payload.owner == some lease.owner &&
    payload.token == some lease.token && decide (now < expiresAt)

def readOwned : Calls (Payload × ETag) := do
  match ← getBytes lease.key with
  | none => throw lease.disappeared
  | some (.corrupt, _) => throw lease.corrupt
  | some (.lease payload, etag) =>
      match payload.expiresAt with
      | none => throw lease.corrupt
      | some expiresAt =>
          let clock ← now
          if lease.owns payload expiresAt clock then return (payload, etag)
          else throw lease.lost

def renew : Calls MaintenanceLease := do
  let (_, etag) ← lease.readOwned
  let clock ← now
  let written ← putCas lease.key
    (encode lease.owner lease.token (clock + timedelta lease.ttlSeconds) held) (.ifMatch etag)
  return { lease with etag := written }

def assertHeld : Calls MaintenanceLease := do
  let (_, etag) ← lease.readOwned
  return { lease with etag := etag }

/-- An expired tombstone, unless a newer owner has the object. -/
def release : Calls MaintenanceLease := do
  match ← lease.readOwned.attempt with
  | .error (.busy _) => return lease
  | .error (.unavailable _) => return lease
  | .error error => throw error
  | .ok (_, etag) =>
      let clock ← now
      match ← (putCas lease.key (encode lease.owner lease.token clock released)
        (.ifMatch etag)).attempt with
      | .error .casConflict => return lease
      | .error error => throw error
      | .ok written => return { lease with etag := written }

end MaintenanceLease

/-- The loop of a composite lease: one lease after the other. -/
def inTurn (act : MaintenanceLease → Calls MaintenanceLease) :
    List MaintenanceLease → Calls (List MaintenanceLease)
  | [] => return []
  | lease :: rest => do
      let first ← act lease
      let others ← inTurn act rest
      return first :: others

/-- What `acquire` returns: one lease, or the composite of several. -/
inductive Handle
  | single (lease : MaintenanceLease)
  | composite (leases : List MaintenanceLease)
  deriving DecidableEq, Repr

namespace Handle

def leases : Handle → List MaintenanceLease
  | .single lease => [lease]
  | .composite leases => leases

def renew : Handle → Calls Handle
  | .single lease => return .single (← lease.renew)
  | .composite leases => return .composite (← inTurn MaintenanceLease.renew leases)

def assertHeld : Handle → Calls Handle
  | .single lease => return .single (← lease.assertHeld)
  | .composite leases => return .composite (← inTurn MaintenanceLease.assertHeld leases)

def release : Handle → Calls Handle
  | .single lease => return .single (← lease.release)
  | .composite leases => return .composite (← inTurn MaintenanceLease.release leases.reverse).reverse

end Handle

/-! ## Acquiring -/

/-- The attempts of `_acquire_single`, all against its one clock reading. -/
def claim (owner key token : String) (ttlSeconds : ℚ) (clock : Int) : Nat → Calls MaintenanceLease
  | 0 => throw (.busy s!"could not claim maintenance lease {key} after CAS retries")
  | attempts + 1 => do
      let found ← getBytes key
      match found.bind fun object => activeOwner object.1 clock with
      | some active => throw (.busy s!"maintenance lease {key} is held by {active}")
      | none =>
          match ← (putCas key (encode owner token (clock + timedelta ttlSeconds) held)
            (writeCondition (found.map (·.2)))).attempt with
          | .ok written => return ⟨key, owner, token, written, ttlSeconds⟩
          | .error .casConflict => claim owner key token ttlSeconds clock attempts
          | .error error => throw error

/-- The checks of `_acquire_single` before it reads the clock. -/
def refusal (casCapable : Bool) (owner key : String) (ttlSeconds : ℚ) : Option Error :=
  if !casCapable then
    some (.unavailable "agenda/chapter maintenance requires a CAS-capable R2 coordination backend")
  else if isBlank owner then some (.valueError "maintenance lease owner must not be empty")
  else if isBlank key then some (.valueError "maintenance lease key must not be empty")
  else if ttlSeconds ≤ 0 then some (.valueError "maintenance lease TTL must be positive")
  else none

def acquireSingle (casCapable : Bool) (owner key token : String) (ttlSeconds : ℚ)
    (givenNow : Option Int) (maxAttempts : Int) : Calls MaintenanceLease :=
  match refusal casCapable owner key ttlSeconds with
  | some error => throw error
  | none => do
      let clock ← match givenNow with
        | some clock => pure clock
        | none => now
      claim owner key token ttlSeconds clock maxAttempts.toNat

/-- What `acquire` raises; an exception of its clean-up carries the one that it
was cleaning up after. -/
structure Raised where
  error : Error
  context : Option Error := none
  deriving DecidableEq, Repr

/-- The keys of an `acquire`, each with the token that is drawn for it. -/
inductive Keys
  | single (key token : String)
  | sequence (keys : List (String × String))
  deriving DecidableEq, Repr

def Keys.pairs : Keys → List (String × String)
  | .single key token => [(key, token)]
  | .sequence keys => keys

section

variable (casCapable : Bool) (owner : String) (ttlSeconds : ℚ) (givenNow : Option Int)
  (maxAttempts : Int)

/-- Claims the remaining keys, and releases in reverse order what it has
acquired when one of them cannot be claimed. -/
def acquireEach (acquired : List MaintenanceLease) :
    List (String × String) → Objects.Session String Data Int Raised (List MaintenanceLease)
  | [] => return acquired
  | (key, token) :: rest => ExceptT.mk do
      match ← (acquireSingle casCapable owner key token ttlSeconds givenNow maxAttempts).run with
      | .ok lease => (acquireEach (acquired ++ [lease]) rest).run
      | .error error =>
          match ← (inTurn MaintenanceLease.release acquired.reverse).run with
          | .ok _ => return .error ⟨error, none⟩
          | .error cleanup => return .error ⟨cleanup, some error⟩

/-- An exception of a call that cleans nothing up. -/
def plainly {α : Type} (session : Calls α) : Objects.Session String Data Int Raised α :=
  session.adapt fun error => ⟨error, none⟩

def acquire : Keys → Objects.Session String Data Int Raised Handle
  | .single key token =>
      plainly (Handle.single <$>
        acquireSingle casCapable owner key token ttlSeconds givenNow maxAttempts)
  | .sequence [] => throw ⟨.valueError "maintenance lease keys must not be empty", none⟩
  | .sequence keys =>
      Handle.composite <$> acquireEach casCapable owner ttlSeconds givenNow maxAttempts [] keys

end

/-! ## Workflows -/

/-- The calls of the workflows. No workflow passes a clock reading of its own. -/
inductive Call
  | acquire (casCapable : Bool) (owner : String) (keys : Keys) (ttlSeconds : ℚ) (maxAttempts : Int)
  | renew (handle : Handle)
  | assertHeld (handle : Handle)
  | release (handle : Handle)

def Call.session : Call → Objects.Session String Data Int Raised Handle
  | .acquire casCapable owner keys ttlSeconds maxAttempts =>
      MaintenanceLeases.acquire casCapable owner ttlSeconds none maxAttempts keys
  | .renew handle => plainly handle.renew
  | .assertHeld handle => plainly handle.assertHeld
  | .release handle => plainly handle.release

abbrev storage : World (Objects.interface String Data Int) := Objects.world String Data Int

def workflows : Activity storage where
  Call := Call
  Result := Except Raised Handle
  task call := call.session.run
  mayStart _ _ := true

end MaintenanceLeases

end CityPods.Ops
