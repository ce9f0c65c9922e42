import Mathlib.Algebra.Group.Nat.Defs
import Mathlib.Data.Nat.Basic

/-! # Context brackets

The search for the context size of a route: a verified count from below, a size
rejection or a token-rate rejection from above, and the probes that bisect them.
-/

namespace CityPods.Catalog

/-! ## Observations -/

inductive Dimension
  | input
  | output
  deriving DecidableEq

inductive CountBasis
  | input
  | output
  | combinedReserved
  | combinedGenerated
  | unknown
  deriving DecidableEq

inductive ReasoningBasis
  | included
  | excluded
  | unknown
  deriving DecidableEq

inductive EvidenceKind
  | processedInput
  | generatedOutput
  | parameterOnly
  | sizeRejection
  deriving DecidableEq

inductive Outcome
  | verified
  | inconclusive
  | quota
  | transport
  | unsupported
  deriving DecidableEq

/-- The counts that a provider reported for a probe; `rateLimited` where it named its error a
rate limit. -/
structure ContextObservation where
  identityDigest : String
  dimension : Dimension
  localInputEstimate : Nat := 0
  reservedInput : Nat := 0
  requestedOutput : Nat := 0
  reportedInput : Option Nat := none
  reportedOutput : Option Nat := none
  reportedTotal : Option Nat := none
  reportedCeiling : Option Nat := none
  countBasis : CountBasis
  reasoningBasis : ReasoningBasis := .unknown
  evidenceKind : EvidenceKind
  outcome : Outcome
  observedAt : String := ""
  rateLimited : Bool := false
  rateLimitLimitTokens : Option Nat := none
  rateLimitRequestedTokens : Option Nat := none

def maxCount : Nat := 2 ^ 53 - 1

namespace ContextObservation

variable (observation : ContextObservation)

def dimensionCount : Option Nat :=
  match observation.dimension with
  | .input => observation.reportedInput
  | .output => observation.reportedOutput

/-- The bases in which a verified observation counts. -/
def comparable : List CountBasis :=
  match observation.dimension with
  | .input => [.input, .combinedReserved, .combinedGenerated]
  | .output => [.output]

/-- The counts of an observation that can be constructed. -/
structure Valid : Prop where
  bounded : ∀ count ∈ [some observation.localInputEstimate, some observation.reservedInput,
    some observation.requestedOutput, observation.reportedInput, observation.reportedOutput,
    observation.reportedTotal, observation.reportedCeiling, observation.rateLimitLimitTokens,
    observation.rateLimitRequestedTokens], ∀ value ∈ count, value ≤ maxCount
  total : ∀ input ∈ observation.reportedInput, ∀ output ∈ observation.reportedOutput,
    ∀ total ∈ observation.reportedTotal, input + output = total
  verified : observation.outcome = .verified →
    observation.dimensionCount.getD 0 ≠ 0 ∧ observation.countBasis ∈ observation.comparable ∧
      (observation.countBasis ∈ [.combinedReserved, .combinedGenerated] →
        observation.reportedTotal.getD 0 ≠ 0) ∧
      (observation.dimension = .output → observation.reasoningBasis ≠ .unknown)
  rejected : observation.evidenceKind = .sizeRejection →
    observation.reportedCeiling.getD 0 ≠ 0 ∧ observation.countBasis ≠ .unknown
  rate : ∀ requested ∈ observation.rateLimitRequestedTokens,
    observation.dimension = .input ∧ observation.rateLimited = true ∧
      ∃ limit ∈ observation.rateLimitLimitTokens, limit < requested

def contextCount : Nat :=
  match observation.countBasis with
  | .combinedReserved => observation.reportedInput.getD 0 + observation.requestedOutput
  | .combinedGenerated => observation.reportedTotal.getD 0
  | _ => observation.dimensionCount.getD 0

def ceiling : Nat := observation.reportedCeiling.getD 0

def requested : Nat := observation.rateLimitRequestedTokens.getD 0

end ContextObservation

/-! ## The search -/

inductive SearchStatus
  | baseline
  | exploring
  | refining
  | rateRefining
  | rateConverged
  | retrying
  | converged
  | budgetLimited
  | uncertain
  | unsupported
  deriving DecidableEq

structure ContextSearchState where
  identityDigest : String
  dimension : Dimension
  success : Option ContextObservation := none
  rejection : Option ContextObservation := none
  rateRejection : Option ContextObservation := none
  nextTarget : Option Nat := none
  status : SearchStatus := .baseline
  lastAttemptedAt : Option String := none
  countPairs : List (Nat × Nat) := []

/-- The bracket is narrow: 128 tokens, or half a percent of its lower end. -/
def narrow (lower upper : Nat) : Bool :=
  decide (lower < upper) && (decide (upper - lower ≤ 128) || decide ((upper - lower) * 200 ≤ lower))

namespace ContextSearchState

variable (state : ContextSearchState)

/-- The count of the success, or nothing yet. -/
def lower : Nat := (state.success.map ContextObservation.contextCount).getD 0

def attempted (observation : ContextObservation) : ContextSearchState :=
  { state with lastAttemptedAt := some observation.observedAt }

def rejectRate (observation : ContextObservation) (requested : Nat) : ContextSearchState :=
  let attempted := state.attempted observation
  if requested ≤ state.lower then attempted
  else if state.rateRejection.any fun previous => decide (previous.requested ≤ requested) then
    attempted
  else
    { attempted with
      rateRejection := some observation
      status := if state.success.isSome && narrow state.lower requested then .rateConverged
        else .rateRefining }

def rejectionBases : List CountBasis :=
  match state.dimension with
  | .input => [.input, .combinedReserved, .combinedGenerated]
  | .output => [.output, .combinedReserved, .combinedGenerated]

def rejectSize (observation : ContextObservation) : ContextSearchState :=
  let attempted := state.attempted observation
  if observation.evidenceKind ≠ .sizeRejection ∨ observation.outcome ≠ .inconclusive then attempted
  else if observation.countBasis ∉ state.rejectionBases then { attempted with status := .uncertain }
  else if state.success.isSome && decide (observation.ceiling ≤ state.lower) then
    { attempted with status := .uncertain, rejection := some observation }
  else if state.rejection.any fun rejection => decide (rejection.ceiling ≤ observation.ceiling) then
    attempted
  else
    { attempted with
      rejection := some observation
      status := if state.success.isSome && narrow state.lower observation.ceiling then .converged
        else .refining }

/-- The pairs of an estimate and its count, of which the last sixteen are kept. -/
def pairsWith (observation : ContextObservation) : List (Nat × Nat) :=
  let reported := observation.reportedInput.getD 0
  if 0 < observation.localInputEstimate ∧ reported ≠ 0 then
    let pairs := state.countPairs ++ [(observation.localInputEstimate, reported)]
    pairs.drop (pairs.length - 16)
  else state.countPairs

def expectedKind : EvidenceKind :=
  match state.dimension with
  | .input => .processedInput
  | .output => .generatedOutput

/-- The reported counts are missing, or exceed what was sent. -/
def implausible (observation : ContextObservation) : Bool :=
  (observation.reportedInput.all fun reported => decide (observation.reservedInput < reported)) ||
    observation.reportedOutput.any fun reported => decide (observation.requestedOutput < reported)

def verify (observation : ContextObservation) : ContextSearchState :=
  let attempted := state.attempted observation
  let pairs := state.pairsWith observation
  let count := observation.contextCount
  if implausible observation then { attempted with countPairs := pairs, status := .uncertain }
  else if observation.evidenceKind ≠ state.expectedKind then { attempted with status := .uncertain }
  else if state.success.isSome && decide (count ≤ state.lower) then
    { attempted with countPairs := pairs, status := .uncertain }
  else if state.rejection.any fun rejection => decide (count = rejection.ceiling) then
    { attempted with countPairs := pairs, status := .uncertain }
  else
    -- A fresh success supersedes the rejections at or below it.
    let rejection := state.rejection.filter fun rejection => decide (count < rejection.ceiling)
    let rateRejection := state.rateRejection.filter fun rejection =>
      decide (count < rejection.requested)
    { attempted with
      success := some observation
      rejection := rejection
      rateRejection := rateRejection
      countPairs := pairs
      nextTarget := none
      status :=
        match rateRejection, rejection with
        | some rate, _ => if narrow count rate.requested then .rateConverged else .rateRefining
        | none, some rejection => if narrow count rejection.ceiling then .converged else .refining
        | none, none => .exploring }

def advance (observation : ContextObservation) : Option ContextSearchState :=
  if observation.identityDigest ≠ state.identityDigest ∨ observation.dimension ≠ state.dimension then
    none
  else
    some <|
      match observation.rateLimitRequestedTokens with
      | some requested => state.rejectRate observation requested
      | none =>
          let reference := state.success <|> state.rejection
          if (reference.any fun reference => decide (reference.countBasis ≠ observation.countBasis)) &&
              decide (observation.countBasis ≠ .unknown) then
            { state.attempted observation with status := .uncertain }
          else
            match observation.outcome with
            | .unsupported => { state.attempted observation with status := .unsupported }
            | .verified => state.verify observation
            | _ => state.rejectSize observation

end ContextSearchState

/-! ## Probes -/

structure ProbeLimits where
  baseline : Nat
  oppositeReservation : Nat

structure ProbeBudget where
  remainingInput : Int
  remainingOutput : Int
  remainingRequests : Int
  routeRequests : Int := 0
  routeLimit : Int := 6
  remainingSeconds : Int := 3600

namespace ContextSearchState

variable (state : ContextSearchState)

/-- A converged rate bracket is opened for the run, and an uncertain bracket starts over. -/
def reopened : ContextSearchState :=
  let state :=
    if state.status = .rateConverged then { state with rateRejection := none, status := .exploring }
    else state
  if state.status = .uncertain then
    { state with
      success := none
      rejection := none
      rateRejection := none
      nextTarget := none
      status := .baseline }
  else state

/-- The upper end of the bracket that the next probe bisects, and what it then does. -/
def bisected : Option (Nat × SearchStatus) :=
  if state.status = .retrying ∨ state.success.isNone then none
  else
    match state.rateRejection.filter fun _ => decide (state.status ≠ .rateConverged) with
    | some rate => some (rate.requested, .rateRefining)
    | none =>
        (state.rejection.filter fun _ => decide (state.status ≠ .converged)).map fun rejection =>
          (rejection.ceiling, .refining)

/-- A tenth more below a known rejection, else half more, rounded up. -/
def expanded : Nat :=
  if state.rejection.isSome then (state.lower * 11 + 9) / 10 else (state.lower * 3 + 1) / 2

def probeTarget (limits : ProbeLimits) : Nat × SearchStatus :=
  match state.bisected with
  | some (upper, status) => ((state.lower + upper) / 2, status)
  | none =>
      if state.status = .retrying then (state.nextTarget.getD 0, .retrying)
      else if state.success.isSome then (state.expanded, .exploring)
      else
        match state.rateRejection, state.rejection with
        | some rate, _ => (rate.requested / 2, .rateRefining)
        | none, some rejection => (rejection.ceiling / 2, .refining)
        | none, none => (state.nextTarget.getD limits.baseline, .baseline)

def overBudget (limits : ProbeLimits) (budget : ProbeBudget) (target : Nat) : Bool :=
  let perCall : Nat × Nat := match state.dimension with
    | .input => (524288, 256)
    | .output => (2048, 32768)
  let sizes : Nat × Nat := match state.dimension with
    | .input => (target, limits.oppositeReservation)
    | .output => (limits.oppositeReservation, target)
  decide (min (perCall.1 : Int) budget.remainingInput < sizes.1) ||
    decide (min (perCall.2 : Int) budget.remainingOutput < sizes.2) ||
    decide (budget.remainingRequests ≤ 0) || decide (budget.routeLimit ≤ budget.routeRequests) ||
    decide (budget.remainingSeconds < 205)

def nextProbe (limits : ProbeLimits) (budget : ProbeBudget) : Option ContextSearchState :=
  if state.status = .unsupported then some state
  else
    let state := state.reopened
    let target := (state.probeTarget limits).1
    let status := if state.overBudget limits budget target then .budgetLimited
      else (state.probeTarget limits).2
    if 0 < target ∧ target ≤ maxCount then
      some { state with nextTarget := some target, status := status }
    else none

end ContextSearchState

/-! ## Runs -/

inductive SearchAction
  | observe (observation : ContextObservation)
  | probe (limits : ProbeLimits) (budget : ProbeBudget)

def SearchAction.Valid : SearchAction → Prop
  | .observe observation => observation.Valid
  | .probe _ _ => True

def ContextSearchState.step (state : ContextSearchState) : SearchAction → Option ContextSearchState
  | .observe observation => state.advance observation
  | .probe limits budget => state.nextProbe limits budget

inductive Searched (permitted : ContextSearchState → SearchAction → Prop) (identityDigest : String)
    (dimension : Dimension) : ContextSearchState → Prop
  | fresh : Searched permitted identityDigest dimension
      { identityDigest := identityDigest, dimension := dimension }
  | step {state after : ContextSearchState} {action : SearchAction} :
      Searched permitted identityDigest dimension state → action.Valid → permitted state action →
        state.step action = some after → Searched permitted identityDigest dimension after

/-- The bracket contradicts itself: its success reached its rejection. -/
def ContextSearchState.Contradictory (state : ContextSearchState) : Prop :=
  ∃ success ∈ state.success, ∃ rejection ∈ state.rejection,
    rejection.ceiling ≤ success.contextCount

/-- What the steps have to avoid: a token-rate rejection that is news to a bracket which
contradicts itself, and a probe, within its budget, of a bracket with nothing in it. -/
def Steers (state : ContextSearchState) : SearchAction → Prop
  | .observe observation => state.Contradictory →
      ∀ requested ∈ observation.rateLimitRequestedTokens, requested ≤ state.lower ∨
        ∃ previous ∈ state.rateRejection, previous.requested ≤ requested
  | .probe limits budget => state.status = .unsupported ∨
      ∀ upper ∈ state.reopened.bisected, upper.1 = state.reopened.lower + 1 →
        state.reopened.overBudget limits budget state.reopened.lower = true

/-- What holds of a state whose status is settled. -/
structure Consistent (state : ContextSearchState) : Prop where
  below : ∀ success ∈ state.success, ∀ rejection ∈ state.rejection,
    success.contextCount < rejection.ceiling
  rate : ∀ success ∈ state.success, ∀ rejection ∈ state.rateRejection,
    success.contextCount < rejection.requested
  basis : ∀ success ∈ state.success, ∀ rejection ∈ state.rejection,
    success.countBasis = rejection.countBasis

/-- The success is kept or raised. -/
def Keeps (before after : ContextSearchState) : Prop :=
  ∀ success ∈ before.success, ∃ next ∈ after.success, success.contextCount ≤ next.contextCount

/-- The next target lies strictly within the bracket that it bisects. -/
def Bisects (state : ContextSearchState) : Prop :=
  ∀ success ∈ state.success,
    (state.status = .refining → ∃ target ∈ state.nextTarget, ∃ rejection ∈ state.rejection,
      success.contextCount < target ∧ target < rejection.ceiling) ∧
    (state.status = .rateRefining → ∃ target ∈ state.nextTarget, ∃ rejection ∈ state.rateRejection,
      success.contextCount < target ∧ target < rejection.requested)

/-! ## The invariant -/

/-- What holds of every state reached; only an unsettled one may contradict itself. -/
structure Held (state : ContextSearchState) : Prop where
  settled : state.status ≠ .uncertain → state.status ≠ .unsupported → ¬ state.Contradictory
  rate : ∀ success ∈ state.success, ∀ rejection ∈ state.rateRejection,
    success.contextCount < rejection.requested
  basis : ∀ success ∈ state.success, ∀ rejection ∈ state.rejection,
    success.countBasis = rejection.countBasis

variable {state after : ContextSearchState} {observation : ContextObservation}

theorem Held.consistent (held : Held state) (certain : state.status ≠ .uncertain)
    (supported : state.status ≠ .unsupported) : Consistent state where
  below := fun success known rejection known' => by
    by_contra over_
    exact held.settled certain supported ⟨success, known, rejection, known', not_lt.mp over_⟩
  rate := held.rate
  basis := held.basis

theorem Held.attempted (held : Held state) (observation : ContextObservation) :
    Held (state.attempted observation) :=
  ⟨held.settled, held.rate, held.basis⟩

theorem Held.unsettle (held : Held state) (success : after.success = state.success)
    (rejection : after.rejection = state.rejection)
    (rateRejection : after.rateRejection = state.rateRejection)
    (unsettled : after.status = .uncertain ∨ after.status = .unsupported) : Held after where
  settled := fun certain supported => by
    obtain same | same := unsettled
    · exact absurd same certain
    · exact absurd same supported
  rate := success ▸ rateRejection ▸ held.rate
  basis := success ▸ rejection ▸ held.basis

variable {success : ContextObservation}

theorem lower_eq (known : success ∈ state.success) :
    state.lower = success.contextCount := by
  rw [ContextSearchState.lower, Option.mem_def.mp known]
  rfl

theorem Held.rejectRate (held : Held state) {requested : Nat}
    (said : observation.rateLimitRequestedTokens = some requested)
    (steers : state.Contradictory → requested ≤ state.lower ∨
      ∃ previous ∈ state.rateRejection, previous.requested ≤ requested) :
    Held (state.rejectRate observation requested) := by
  unfold ContextSearchState.rejectRate
  dsimp only
  split
  · exact held.attempted observation
  next above =>
  split
  · exact held.attempted observation
  next lowest =>
  exact {
    settled := fun _ _ contradictory => by
      obtain under | ⟨previous, known, older⟩ := steers contradictory
      · exact above under
      · exact lowest (Option.any_eq_true .. |>.mpr ⟨previous, known, decide_eq_true older⟩)
    rate := fun success known rejection new => by
      cases new
      rw [ContextObservation.requested, said, ← lower_eq known]
      exact not_le.mp above
    basis := held.basis }

/-- The bases of a bracket's observations agree, once the advance has let one through. -/
def Agrees (state : ContextSearchState) (observation : ContextObservation) : Prop :=
  ∀ reference ∈ state.success <|> state.rejection, observation.countBasis ≠ .unknown →
    reference.countBasis = observation.countBasis

theorem Held.rejectSize (held : Held state) (valid : observation.Valid)
    (agrees : Agrees state observation) : Held (state.rejectSize observation) := by
  unfold ContextSearchState.rejectSize
  dsimp only
  split
  · exact held.attempted observation
  next evidence =>
  rw [not_or, not_not, not_not] at evidence
  have basis : ∀ success ∈ state.success, success.countBasis = observation.countBasis :=
    fun success known => agrees success
      (by rw [Option.mem_def] at known ⊢; simp [known]) (valid.rejected evidence.1).2
  split
  · exact held.unsettle rfl rfl rfl (.inl rfl)
  split
  · exact {
      settled := fun certain => absurd rfl certain
      rate := held.rate
      basis := fun success known rejection new => by
        cases new
        exact basis success known }
  next above =>
  split
  · exact held.attempted observation
  · exact {
      settled := fun _ _ ⟨success, known, rejection, new, reached⟩ => by
        cases new
        have known : state.success = some success := known
        rw [← lower_eq known] at reached
        exact above (by simp [known, reached])
      rate := held.rate
      basis := fun success known rejection new => by
        cases new
        exact basis success known }

theorem comparable_ne_unknown (member : observation.countBasis ∈ observation.comparable) :
    observation.countBasis ≠ .unknown := by
  intro unknown
  rw [unknown, ContextObservation.comparable] at member
  split at member <;> simp at member

theorem Held.verify (held : Held state) (agrees : Agrees state observation)
    (comparable : observation.countBasis ≠ .unknown) : Held (state.verify observation) := by
  unfold ContextSearchState.verify
  dsimp only
  split
  · exact held.unsettle rfl rfl rfl (.inl rfl)
  split
  · exact held.unsettle rfl rfl rfl (.inl rfl)
  split
  · exact held.unsettle rfl rfl rfl (.inl rfl)
  split
  · exact held.unsettle rfl rfl rfl (.inl rfl)
  · exact {
      settled := fun _ _ ⟨success, known, rejection, kept, reached⟩ => by
        cases known
        exact absurd (of_decide_eq_true (Option.mem_filter_iff.mp kept).2) (not_lt.mpr reached)
      rate := fun success known rejection kept => by
        cases known
        exact of_decide_eq_true (Option.mem_filter_iff.mp kept).2
      basis := fun success known rejection kept => by
        cases known
        have old := (Option.mem_filter_iff.mp kept).1
        cases first : state.success with
        | none => exact (agrees rejection (by rw [first]; exact old) comparable).symm
        | some success =>
            have same := agrees success (by rw [first]; rfl) comparable
            exact same.symm.trans (held.basis success first rejection old) }

theorem Held.advance (held : Held state) (valid : observation.Valid)
    (steers : Steers state (.observe observation))
    (advanced : state.advance observation = some after) : Held after := by
  unfold ContextSearchState.advance at advanced
  split at advanced
  · cases advanced
  have advanced := Option.some.inj advanced
  subst advanced
  split
  · next requested said =>
      exact held.rejectRate said fun contradictory => steers contradictory requested said
  · next unsaid =>
      dsimp only
      split
      · exact held.unsettle rfl rfl rfl (.inl rfl)
      next matched =>
      have agrees : Agrees state observation := fun reference first known => by
        by_contra differs
        exact matched (by simp [Option.mem_def.mp first, differs, known])
      split
      · exact held.unsettle rfl rfl rfl (.inr rfl)
      · next verified => exact held.verify agrees (comparable_ne_unknown (valid.verified verified).2.1)
      · exact held.rejectSize valid agrees

/-! ## Steps -/

theorem Held.reopened (held : Held state) : Held state.reopened := by
  unfold ContextSearchState.reopened
  dsimp only
  split
  · split
    · next never => cases never
    · next converged _ =>
        exact {
          settled := fun _ _ => held.settled (by rw [converged]; decide) (by rw [converged]; decide)
          rate := fun _ _ _ never => by cases never
          basis := held.basis }
  · split
    · exact {
        settled := fun _ _ ⟨_, never, _⟩ => by cases never
        rate := fun _ never => by cases never
        basis := fun _ never => by cases never }
    · exact held

theorem reopened_status (state : ContextSearchState) : state.reopened.status ≠ .uncertain := by
  unfold ContextSearchState.reopened
  dsimp only
  split
  · split
    · next never => cases never
    · exact SearchStatus.noConfusion
  · split
    · exact SearchStatus.noConfusion
    · assumption

theorem reopened_success (certain : state.status ≠ .uncertain) :
    state.reopened.success = state.success := by
  unfold ContextSearchState.reopened
  dsimp only
  split
  · split
    · next never => cases never
    · rfl
  · rfl

theorem reopened_supported (supported : state.status ≠ .unsupported) :
    state.reopened.status ≠ .unsupported := by
  unfold ContextSearchState.reopened
  dsimp only
  split
  · split
    · exact SearchStatus.noConfusion
    · exact SearchStatus.noConfusion
  · split
    · exact SearchStatus.noConfusion
    · exact supported

variable {limits : ProbeLimits} {budget : ProbeBudget}

theorem nextProbe_eq
    (supported : state.status ≠ .unsupported) (probed : state.nextProbe limits budget = some after) :
    after = { state.reopened with
      nextTarget := some (state.reopened.probeTarget limits).1
      status := if state.reopened.overBudget limits budget (state.reopened.probeTarget limits).1 then
        .budgetLimited else (state.reopened.probeTarget limits).2 } := by
  unfold ContextSearchState.nextProbe at probed
  rw [if_neg supported] at probed
  dsimp only at probed
  split at probed
  · exact (Option.some.inj probed).symm
  · cases probed

theorem Held.nextProbe (held : Held state)
    (probed : state.nextProbe limits budget = some after) : Held after := by
  by_cases supported : state.status = .unsupported
  · rw [ContextSearchState.nextProbe, if_pos supported] at probed
    exact Option.some.inj probed ▸ held
  · rw [nextProbe_eq supported probed]
    have reopened := held.reopened
    exact {
      settled := fun _ _ =>
        reopened.settled (reopened_status state) (reopened_supported supported)
      rate := reopened.rate
      basis := reopened.basis }

theorem Held.step {action : SearchAction} (held : Held state) (valid : action.Valid)
    (steers : Steers state action) (stepped : state.step action = some after) : Held after := by
  cases action with
  | observe observation => exact held.advance valid steers stepped
  | probe limits budget => exact held.nextProbe stepped

theorem held_of_searched {identityDigest : String} {dimension : Dimension}
    (searched : Searched Steers identityDigest dimension state) : Held state := by
  induction searched with
  | fresh =>
      exact {
        settled := fun _ _ ⟨_, never, _⟩ => by cases never
        rate := fun _ never => by cases never
        basis := fun _ never => by cases never }
  | step _ valid steers stepped held => exact held.step valid steers stepped

theorem Keeps.of_same (same : after.success = state.success) : Keeps state after :=
  fun success known => ⟨success, same ▸ known, le_rfl⟩

theorem keeps_verify : Keeps state (state.verify observation) := by
  unfold ContextSearchState.verify
  dsimp only
  split
  · exact .of_same rfl
  split
  · exact .of_same rfl
  split
  · exact .of_same rfl
  next above =>
  split
  · exact .of_same rfl
  · intro success known
    refine ⟨observation, rfl, ?_⟩
    rw [lower_eq known] at above
    rw [Option.mem_def] at known
    simp only [known, Option.isSome_some, Bool.true_and, decide_eq_true_eq, not_le] at above
    exact Nat.le_of_lt above

theorem keeps_advance (advanced : state.advance observation = some after) : Keeps state after := by
  unfold ContextSearchState.advance at advanced
  split at advanced
  · cases advanced
  have advanced := Option.some.inj advanced
  subst advanced
  split
  · unfold ContextSearchState.rejectRate
    dsimp only
    split
    · exact .of_same rfl
    split
    · exact .of_same rfl
    · exact .of_same rfl
  · dsimp only
    split
    · exact .of_same rfl
    split
    · exact .of_same rfl
    · exact keeps_verify
    · unfold ContextSearchState.rejectSize
      dsimp only
      split
      · exact .of_same rfl
      split
      · exact .of_same rfl
      split
      · exact .of_same rfl
      split
      · exact .of_same rfl
      · exact .of_same rfl

/-- Only the restart of an uncertain bracket loses its success. -/
theorem keeps_nextProbe
    (certain : state.status ≠ .uncertain) (probed : state.nextProbe limits budget = some after) :
    Keeps state after := by
  by_cases supported : state.status = .unsupported
  · rw [ContextSearchState.nextProbe, if_pos supported] at probed
    exact .of_same (Option.some.inj probed ▸ rfl)
  · rw [nextProbe_eq supported probed]
    exact .of_same (reopened_success certain)

variable {upper : Nat}

theorem bisected_cases {status : SearchStatus} (bisected : state.bisected = some (upper, status)) :
    (status = .rateRefining ∧ ∃ rate ∈ state.rateRejection, upper = rate.requested) ∨
      status = .refining ∧ ∃ rejection ∈ state.rejection, upper = rejection.ceiling := by
  unfold ContextSearchState.bisected at bisected
  split at bisected
  · cases bisected
  split at bisected
  · next rate kept =>
      cases bisected
      exact .inl ⟨rfl, rate, (Option.mem_filter_iff.mp kept).1, rfl⟩
  · obtain ⟨rejection, kept, same⟩ := Option.map_eq_some_iff.mp bisected
    cases same
    exact .inr ⟨rfl, rejection, (Option.mem_filter_iff.mp kept).1, rfl⟩

theorem probeTarget_of_none (limits : ProbeLimits) (open_ : state.bisected = none)
    (known : success ∈ state.success) :
    (state.probeTarget limits).2 = .retrying ∨ (state.probeTarget limits).2 = .exploring := by
  rw [Option.mem_def] at known
  unfold ContextSearchState.probeTarget
  rw [open_]
  dsimp only
  split
  · exact .inl rfl
  · exact .inr (by rw [known]; rfl)

theorem middle_between {lower : Nat} (wide : lower + 1 < upper) :
    lower < (lower + upper) / 2 ∧ (lower + upper) / 2 < upper := by
  omega

theorem bisects_nextProbe (held : Held state) (steers : Steers state (.probe limits budget))
    (probed : state.nextProbe limits budget = some after) : Bisects after := by
  by_cases supported : state.status = .unsupported
  · rw [ContextSearchState.nextProbe, if_pos supported] at probed
    cases probed
    intro success known
    rw [supported]
    exact ⟨SearchStatus.noConfusion, SearchStatus.noConfusion⟩
  have steers := steers.resolve_left supported
  rw [nextProbe_eq supported probed]
  have reopened := held.reopened.consistent (reopened_status state) (reopened_supported supported)
  intro success known
  dsimp only at known ⊢
  cases open_ : state.reopened.bisected with
  | none =>
      obtain retrying | exploring := probeTarget_of_none limits open_ known
      · rw [retrying]
        constructor <;> intro same <;> split at same <;> cases same
      · rw [exploring]
        constructor <;> intro same <;> split at same <;> cases same
  | some bracket =>
      obtain ⟨upper, status⟩ := bracket
      have target : state.reopened.probeTarget limits =
          ((state.reopened.lower + upper) / 2, status) := by
        rw [ContextSearchState.probeTarget, open_]
      have wide : state.reopened.overBudget limits budget ((state.reopened.lower + upper) / 2) = false →
          upper ≠ state.reopened.lower + 1 := by
        intro affordable thin
        have over_ := steers (upper, status) open_ thin
        have middle : (state.reopened.lower + upper) / 2 = state.reopened.lower := by omega
        rw [middle, over_] at affordable
        cases affordable
      rw [target]
      dsimp only
      cases affordable : state.reopened.overBudget limits budget ((state.reopened.lower + upper) / 2) with
      | true => exact ⟨SearchStatus.noConfusion, SearchStatus.noConfusion⟩
      | false =>
          have wide := wide affordable
          rw [lower_eq known] at wide ⊢
          obtain ⟨rfl, rate, kept, rfl⟩ | ⟨rfl, rejection, kept, rfl⟩ := bisected_cases open_
          · have below := reopened.rate success known rate kept
            exact ⟨SearchStatus.noConfusion, fun _ => ⟨_, rfl, rate, kept,
              middle_between (lt_of_le_of_ne below wide.symm)⟩⟩
          · have below := reopened.below success known rejection kept
            exact ⟨fun _ => ⟨_, rfl, rejection, kept,
              middle_between (lt_of_le_of_ne below wide.symm)⟩, SearchStatus.noConfusion⟩

/-- In runs that steer clear of both defects every settled state is consistent, only the
restart of an uncertain bracket loses its success, and every probe bisects its bracket. -/
theorem searched_consistent (identityDigest : String) (dimension : Dimension)
    (state : ContextSearchState) (searched : Searched Steers identityDigest dimension state) :
    (state.status ≠ .uncertain → state.status ≠ .unsupported → Consistent state) ∧
      ∀ action after, action.Valid → Steers state action → state.step action = some after →
        (Keeps state after ∨
          state.status = .uncertain ∧ ∃ limits budget, action = .probe limits budget) ∧
        ∀ limits budget, action = .probe limits budget → Bisects after := by
  have held := held_of_searched searched
  refine ⟨held.consistent, fun action after valid steers stepped => ?_⟩
  cases action with
  | observe observation => exact ⟨.inl (keeps_advance stepped), fun _ _ never => by cases never⟩
  | probe limits budget =>
      refine ⟨?_, fun _ _ _ => bisects_nextProbe held steers stepped⟩
      by_cases certain : state.status = .uncertain
      · exact .inr ⟨certain, limits, budget, rfl⟩
      · exact .inl (keeps_nextProbe certain stepped)

/-! ## A contradiction that is forgotten -/

def verifiedInput (count : Nat) : ContextObservation :=
  { identityDigest := "id", dimension := .input, reservedInput := count, reportedInput := some count,
    countBasis := .input, evidenceKind := .processedInput, outcome := .verified }

def inputRejection (ceiling : Nat) : ContextObservation :=
  { identityDigest := "id", dimension := .input, reportedCeiling := some ceiling,
    countBasis := .input, evidenceKind := .sizeRejection, outcome := .inconclusive }

def inputRate (requested : Nat) : ContextObservation :=
  { identityDigest := "id", dimension := .input, countBasis := .unknown,
    evidenceKind := .parameterOnly, outcome := .quota, rateLimited := true,
    rateLimitLimitTokens := some 0, rateLimitRequestedTokens := some requested }

theorem verifiedInput_valid {count : Nat} (positive : count ≠ 0) (bounded : count ≤ maxCount) :
    (verifiedInput count).Valid where
  bounded := by simp [verifiedInput, bounded]
  total := by simp [verifiedInput]
  verified := by
    simp [verifiedInput, ContextObservation.dimensionCount, ContextObservation.comparable, positive]
  rejected := by simp [verifiedInput]
  rate := by simp [verifiedInput]

theorem inputRejection_valid {ceiling : Nat} (positive : ceiling ≠ 0) (bounded : ceiling ≤ maxCount) :
    (inputRejection ceiling).Valid where
  bounded := by simp [inputRejection, bounded]
  total := by simp [inputRejection]
  verified := by simp [inputRejection]
  rejected := by simp [inputRejection, positive]
  rate := by simp [inputRejection]

theorem inputRate_valid {requested : Nat} (positive : requested ≠ 0) (bounded : requested ≤ maxCount) :
    (inputRate requested).Valid where
  bounded := by simp [inputRate, bounded]
  total := by simp [inputRate]
  verified := by simp [inputRate]
  rejected := by simp [inputRate]
  rate := by simp [inputRate, Nat.pos_iff_ne_zero, positive]

/-- A success below a size rejection. -/
theorem searched_consistent_refining : ∃ state : ContextSearchState,
    state.lower = 10 ∧ state.status = .refining ∧ Consistent state := by
  let first : ContextSearchState := { identityDigest := "id", dimension := .input }
  have started : Searched Steers "id" .input first := .fresh
  have verified : (SearchAction.observe (verifiedInput 10)).Valid :=
    verifiedInput_valid (by decide) (by decide)
  have rejected : (SearchAction.observe (inputRejection 300)).Valid :=
    inputRejection_valid (by decide) (by decide)
  have known := started.step verified (fun ⟨_, never, _⟩ => by cases never) rfl
  have bracket := known.step rejected (fun _ _ never => by cases never) rfl
  exact ⟨_, rfl, rfl, (searched_consistent "id" .input _ bracket).1 (by decide) (by decide)⟩

/-- A token-rate rejection takes the mark from a bracket that contradicts itself. -/
theorem rate_forgets_contradiction : ¬ ∀ (identityDigest : String) (dimension : Dimension)
    (state : ContextSearchState), Searched (fun _ _ => True) identityDigest dimension state →
      state.status ≠ .uncertain → state.status ≠ .unsupported → Consistent state := by
  intro claimed
  let first : ContextSearchState := { identityDigest := "id", dimension := .input }
  have started : Searched (fun _ _ => True) "id" .input first := .fresh
  have verified : (SearchAction.observe (verifiedInput 10)).Valid :=
    verifiedInput_valid (by decide) (by decide)
  have rejected : (SearchAction.observe (inputRejection 9)).Valid :=
    inputRejection_valid (by decide) (by decide)
  have refused : (SearchAction.observe (inputRate 800)).Valid :=
    inputRate_valid (by decide) (by decide)
  have known := started.step verified trivial rfl
  have contradicted := known.step rejected trivial rfl
  have forgotten := contradicted.step refused trivial rfl
  have consistent := claimed _ _ _ forgotten (by decide) (by decide)
  exact absurd (consistent.below (verifiedInput 10) rfl (inputRejection 9) rfl) (by decide)

end CityPods.Catalog
