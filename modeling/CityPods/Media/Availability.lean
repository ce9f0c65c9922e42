import CityPods.Foundation.Dict

/-! # Media availability

The durable verdict on the media of an episode: a state machine over what the
runs observe of it and what an operator decides.
-/

namespace CityPods.Media

open Foundation

inductive State
  | available
  | suspectedEmpty
  | confirmedEmpty
  | missing
  | invalid
  | recovered
  | suspectedPartial
  | confirmedPartial
  deriving DecidableEq

/-- States whose media is kept out of feeds. -/
def withheldStates : List State := [.suspectedEmpty, .confirmedEmpty, .missing, .invalid]

/-- The states that an operator may force, by name. -/
def overrideStates : Dict String State :=
  [("suspected_empty", .suspectedEmpty), ("confirmed_empty", .confirmedEmpty),
    ("missing", .missing), ("invalid", .invalid), ("available", .available),
    ("recovered", .recovered), ("suspected_partial", .suspectedPartial),
    ("confirmed_partial", .confirmedPartial)]

inductive Kind
  | silent
  | playable
  | shortened
  | transportFailed
  | dead
  | absent
  deriving DecidableEq

def kinds : Dict String Kind :=
  [("silent", .silent), ("playable", .playable), ("partial", .shortened),
    ("transport_failed", .transportFailed), ("dead", .dead), ("missing", .absent)]

def confirmThreshold : Nat := 2

def detectorVersion : String := "1"

structure MediaAvailability where
  state : State
  reason : String
  detectorVersion : String
  sourceFingerprint : Option String
  profile : String
  lastCheck : Option String
  silentConfirmations : Nat
  partialConfirmations : Nat
  evidenceRef : Option String
  operatorOverride : Option State
  operatorReason : String
  recoveredAt : Option String
  deriving DecidableEq

def MediaAvailability.effectiveState (verdict : MediaAvailability) : State :=
  verdict.operatorOverride.getD verdict.state

def MediaAvailability.isWithheld (verdict : MediaAvailability) : Bool :=
  withheldStates.contains verdict.effectiveState

structure Observation where
  kind : String
  fingerprint : Option String
  profile : String
  reason : String
  now : String

/-- `text or fallback` -/
def textOr (text fallback : String) : String := if text = "" then fallback else text

/-- `fingerprint or fallback` -/
def fingerprintOr (fingerprint fallback : Option String) : Option String :=
  match fingerprint with
  | none => fallback
  | some text => if text = "" then fallback else some text

/-- The observation carries a fingerprint other than the stored one. -/
def differs (stored carried : Option String) : Bool :=
  match stored, carried with
  | some first, some second => second != first
  | _, _ => false

/-- The observation is about different source bytes than the stored verdict. -/
def freshSource (prior : Option MediaAvailability) (obs : Observation) : Bool :=
  match prior with
  | none => false
  | some verdict => differs verdict.sourceFingerprint obs.fingerprint

/-- What a new verdict keeps of the one it is built on. -/
def build (prior base : Option MediaAvailability) (obs : Observation) (state : State)
    (silentConfirmations partialConfirmations : Nat) (reason : String)
    (recoveredAt : Option String) : MediaAvailability where
  state := state
  reason := reason
  detectorVersion := detectorVersion
  sourceFingerprint := fingerprintOr obs.fingerprint (prior.bind (·.sourceFingerprint))
  profile := textOr obs.profile ((prior.map (·.profile)).getD "")
  lastCheck := some obs.now
  silentConfirmations := silentConfirmations
  partialConfirmations := partialConfirmations
  evidenceRef := base.bind (·.evidenceRef)
  operatorOverride := base.bind (·.operatorOverride)
  operatorReason := (base.map (·.operatorReason)).getD ""
  recoveredAt := recoveredAt

def judge (prior base : Option MediaAvailability) (obs : Observation) :
    Kind → Option MediaAvailability
  | .transportFailed => prior.map fun verdict => { verdict with lastCheck := some obs.now }
  | .dead =>
      some (build prior base obs .invalid 0 0
        (textOr obs.reason "provider reports no usable media") (base.bind (·.recoveredAt)))
  | .absent =>
      some (build prior base obs .missing 0 0
        (textOr obs.reason "source resolved to no media") (base.bind (·.recoveredAt)))
  | .silent =>
      let confirmations := (base.map (·.silentConfirmations)).getD 0 + 1
      let state := if confirmThreshold ≤ confirmations then State.confirmedEmpty else .suspectedEmpty
      some (build prior base obs state confirmations 0
        (textOr obs.reason
          (if state = .confirmedEmpty then
            "near-total silence confirmed on " ++ toString confirmations ++ " independent fetches"
          else "near-total silence on a successful fetch (awaiting confirmation)"))
        (base.bind (·.recoveredAt)))
  | .shortened =>
      let confirmations := (base.map (·.partialConfirmations)).getD 0 + 1
      let state :=
        if confirmThreshold ≤ confirmations then State.confirmedPartial else .suspectedPartial
      some (build prior base obs state 0 confirmations
        (textOr obs.reason
          (if state = .confirmedPartial then
            "short source confirmed on " ++ toString confirmations ++ " independent fetches"
          else
            "decoded audio far shorter than source-advertised on a successful fetch " ++
              "(awaiting confirmation)"))
        (base.bind (·.recoveredAt)))
  | .playable =>
      if (base.map (·.isWithheld)).getD false then
        some (build prior base obs .recovered 0 0
          (textOr obs.reason "playable audio fetched after a prior withheld verdict")
          (some obs.now))
      else
        some (build prior base obs .available 0 0 (textOr obs.reason "playable audio")
          (base.bind (·.recoveredAt)))

/-- The base of the next verdict: the prior one, unless the media has changed. -/
def baseOf (prior : Option MediaAvailability) (obs : Observation) : Option MediaAvailability :=
  if freshSource prior obs then none else prior

/-- Fold one observation into the stored verdict. The outer `none` is an unknown
kind, the inner one no verdict. -/
def classify (prior : Option MediaAvailability) (obs : Observation) :
    Option (Option MediaAvailability) :=
  (kinds.get? obs.kind).map (judge prior (baseOf prior obs) obs)

/-- Set an operator override on the stored verdict, or clear it; `none` where the
source raises. -/
def withOperatorOverride (prior : Option MediaAvailability) (state : Option String)
    (reason now : String) : Option MediaAvailability :=
  let created : MediaAvailability :=
    { state := .available, reason := "created by operator override"
      detectorVersion := detectorVersion, sourceFingerprint := none, profile := ""
      lastCheck := none, silentConfirmations := 0, partialConfirmations := 0
      evidenceRef := none, operatorOverride := none, operatorReason := "", recoveredAt := none }
  match state with
  | none =>
      prior.map fun verdict =>
        { verdict with operatorOverride := none, operatorReason := "", lastCheck := some now }
  | some name =>
      (overrideStates.get? name).map fun forced =>
        { prior.getD created with
          operatorOverride := some forced, operatorReason := reason, lastCheck := some now }

inductive Event
  | observe (obs : Observation)
  | override (state : Option String) (reason now : String)

def apply (prior : Option MediaAvailability) : Event → Option (Option MediaAvailability)
  | .observe obs => classify prior obs
  | .override state reason now => (withOperatorOverride prior state reason now).map some

def fold (events : List Event) : Option (Option MediaAvailability) := events.foldlM apply none

end CityPods.Media
