import CityPods.Foundation.Doubles
import CityPods.Foundation.Threshold

/-! # The capacity bracket

A size is searched on one axis of a request. Admitted probes raise the lower
bound and refused ones lower the upper bound, as far as they are counted alike.
-/

namespace CityPods.Discovery

open Foundation

inductive Axis
  | input
  | output
  | totalInputHeavy
  | totalOutputHeavy
deriving DecidableEq, Repr

inductive Outcome
  | admitted
  | refused
  | lowerOnly
  | quota
  | daily
  | outage
  | inconclusive
deriving DecidableEq, Repr

/-- The largest integer that a count may be. -/
def maxCount : Nat := 2 ^ 53 - 1

structure DiscoveryRequest where
  axis : Axis
  target : Nat
  control : String
deriving DecidableEq, Repr

structure DiscoveryObservation where
  request : DiscoveryRequest
  outcome : Outcome
  coordinate : Option Nat
  countBasis : String
  /-- A boundary has a comparable count. -/
  counted : outcome = .admitted ∨ outcome = .refused →
    (∃ count, coordinate = some count ∧ 0 < count ∧ count ≤ maxCount) ∧ countBasis ≠ "unknown"
deriving DecidableEq

namespace DiscoveryObservation

def isBoundary (observation : DiscoveryObservation) : Bool :=
  observation.outcome == .admitted || observation.outcome == .refused

def count (observation : DiscoveryObservation) : Nat := observation.coordinate.getD 0

def key (observation : DiscoveryObservation) : String × String :=
  (observation.countBasis, observation.request.control)

variable {observation : DiscoveryObservation}

theorem isBoundary_iff :
    observation.isBoundary = true ↔
      observation.outcome = .admitted ∨ observation.outcome = .refused := by
  simp [isBoundary]

theorem count_pos (boundary : observation.isBoundary = true) :
    0 < observation.count := by
  obtain ⟨⟨count, same, positive, _⟩, _⟩ := observation.counted (isBoundary_iff.mp boundary)
  rw [DiscoveryObservation.count, same]
  exact positive

end DiscoveryObservation

/-- The ways of counting that bound an axis. -/
def Axis.countBases : Axis → List String
  | .input => ["input", "prompt_tokens"]
  | .output => ["output", "completion_including_reasoning", "generated_output"]
  | .totalInputHeavy | .totalOutputHeavy =>
      ["prompt_plus_requested_output", "prompt_plus_generated_output"]

/-- The quotient of two integers as a double, rounded up. -/
def ceilQuotient (numerator denominator : Nat) : Nat :=
  ⌈Doubles.nearest (numerator / denominator)⌉₊

/-- A number, where zero is as good as missing. -/
def orElse (value : Option Nat) (fallback : Nat) : Nat :=
  match value with
  | some (number + 1) => number + 1
  | _ => fallback

structure Bracket where
  axis : Axis
  seed : Nat
  lower : Option Nat := none
  upper : Option Nat := none
  basis : Option String := none
  control : Option String := none
  nonprogress : Nat := 0
  reason : Option String := none
  history : List DiscoveryObservation := []
deriving DecidableEq

namespace Bracket

def width (lower : Nat) : Nat := max 1 (ceilQuotient lower 200)

def converged (bracket : Bracket) : Bool :=
  match bracket.lower, bracket.upper with
  | some lower, some upper => decide (lower < upper ∧ upper - lower ≤ width lower)
  | _, _ => false

def target (bracket : Bracket) : Nat :=
  match bracket.lower, bracket.upper with
  | some lower, some upper => lower + (upper - lower) / 2
  | none, some upper => max 1 (upper / 2)
  | some (lower + 1), none => ceilQuotient ((lower + 1) * 3) 2
  | _, none => bracket.seed

/-- The bounds and an observation that is counted like them disagree. -/
def contradicted (bracket : Bracket) (observation : DiscoveryObservation) : Bool :=
  observation.outcome == .admitted && bracket.upper.any (· ≤ observation.count) ||
    observation.outcome == .refused && bracket.lower.any (observation.count ≤ ·)

def rebaseline (bracket : Bracket) : Bracket :=
  { bracket with lower := none, upper := none, reason := some "contradictory_boundary_rebaseline" }

def bound (bracket : Bracket) (observation : DiscoveryObservation) : Bracket :=
  if observation.outcome = .admitted then
    { bracket with lower := some (max (orElse bracket.lower 0) observation.count) }
  else
    { bracket with
      upper := some (min (orElse bracket.upper observation.count) observation.count) }

/-- An observation that is counted like the bounds. -/
def compare (bracket : Bracket) (observation : DiscoveryObservation) : Bracket :=
  let rebased := if bracket.contradicted observation then bracket.rebaseline else bracket
  let bounded := rebased.bound observation
  { bounded with
    nonprogress :=
      if (bracket.lower, bracket.upper) = (bounded.lower, bounded.upper) then
        bracket.nonprogress + 1
      else 0 }

def observe (bracket : Bracket) (observation : DiscoveryObservation) : Except String Bracket :=
  if observation.request.axis ≠ bracket.axis then .error "observation belongs to another axis"
  else
    let bracket := { bracket with history := bracket.history ++ [observation] }
    let stalled := { bracket with nonprogress := bracket.nonprogress + 1 }
    if observation.isBoundary = false then .ok stalled
    else if observation.countBasis ∉ bracket.axis.countBases then
      .ok { stalled with reason := some "conditional_or_unverified_count_basis" }
    else if bracket.basis ≠ none ∧
        (some observation.countBasis, some observation.request.control) ≠
          (bracket.basis, bracket.control) then
      .ok { stalled with reason := some "incomparable_count_or_control" }
    else
      .ok ({ bracket with
        basis := some observation.countBasis
        control := some observation.request.control }.compare observation)

end Bracket

end CityPods.Discovery
