import Mathlib.Algebra.Order.Floor.Ring
import Mathlib.Data.Rat.Floor
import CityPods.Dispatch.RouteLedger

/-! # Input sizes

What a job's raw token estimate amounts to on a route, and whether the route
takes an input of that size at all.
-/

namespace CityPods.Dispatch

structure SizedJob where
  inputTokenEstimate : ℚ
  maxOutputTokenEstimate : ℚ
  deriving DecidableEq

/-- The route's static prior: provider tokens per estimated token. -/
def routeInputTokenRatio (route : CatalogRoute) : ℚ :=
  match route.inputTokenRatio with
  | some ratio => if 1 / 4 ≤ ratio ∧ ratio ≤ 8 then ratio else 1
  | none => 1

/-- A raw estimate expressed in the route's own tokenizer units. -/
def scaledInputTokens (rawInput ratio : ℚ) : ℚ :=
  ⌈max 0 rawInput * (if 0 < ratio then ratio else 1)⌉

/-- Output tokens to reserve: the forecast, never above the request's own limit. -/
def outputReserveFor (job : SizedJob) (outputForecast : Option ℚ) : ℚ :=
  match outputForecast with
  | none => max 0 job.maxOutputTokenEstimate
  | some forecast => min (max 0 job.maxOutputTokenEstimate) forecast

/-- The smaller of two limits of which either may be missing. -/
def minLimit (limit : ℚ) : Option ℚ → ℚ
  | none => limit
  | some other => min limit other

/-- The largest input the coordinator tries on a route; `none` without a ceiling. -/
def hardInputCeilingLimit (route : CatalogRoute) (tolerant : Bool) : Option ℚ :=
  let quotaCeiling := if isGemini route ∧ 0 < limitOf route.tpm then route.tpm else none
  let ceiling := limitOf route.hardInputCeiling
  if ceiling ≤ 0 then quotaCeiling
  else if tolerant then
    let tolerance := limitOf route.hardInputCeilingTolerance
    let slack := if 0 < tolerance ∧ tolerance ≤ 1 / 2 then tolerance else 0
    some (minLimit ⌊ceiling * (1 + slack)⌋ quotaCeiling)
  else some (minLimit ceiling quotaCeiling)

/-- Seven days: how long a learned input size is trusted. -/
def learnedCeilingTtlMs : ℚ := 604800000

structure LearnedCeilings where
  acceptedMax : ℚ
  rejectedMin : ℚ

/-- What the route has done with input sizes; of two that contradict each other
the more recent one stands. -/
def learnedCeilings (ledger : RouteLedger) (now : ℚ) : LearnedCeilings :=
  let accepted :=
    if 0 < ledger.inputAcceptedMax ∧ learnedCeilingTtlMs < now - ledger.inputAcceptedAt then 0
    else ledger.inputAcceptedMax
  let rejected :=
    if 0 < ledger.inputRejectedMin ∧ learnedCeilingTtlMs < now - ledger.inputRejectedAt then 0
    else ledger.inputRejectedMin
  if 0 < accepted ∧ 0 < rejected ∧ rejected ≤ accepted then
    if ledger.inputRejectedAt ≤ ledger.inputAcceptedAt then ⟨accepted, 0⟩ else ⟨0, rejected⟩
  else ⟨accepted, rejected⟩

/-- Why a route cannot take a job at any time. -/
inductive Refusal
  | routePaused
  | learnedRejectedSize
  | overInputCeiling
  | overPromptCap
  | reservationOverDailyTokens
  | inputOverMinuteQuota
  | reservationOverProviderTokens
  deriving DecidableEq

/-- Why this route will not take an input of this size. -/
def inputSizeRefusal (route : CatalogRoute) (ledger : RouteLedger) (rawEstimate : ℚ)
    (inputRatio admitRatio : Option ℚ) (now : ℚ) (tolerant : Bool) : Option Refusal :=
  let conservative := inputRatio.getD (routeInputTokenRatio route)
  let lenient := minLimit conservative admitRatio
  let admitEstimate := scaledInputTokens rawEstimate lenient
  let learned := learnedCeilings ledger now
  if ¬ tolerant ∧ 0 < learned.rejectedMin ∧ learned.rejectedMin ≤ admitEstimate then
    some .learnedRejectedSize
  else
    match hardInputCeilingLimit route tolerant with
    | none => none
    | some limit =>
        if max limit learned.acceptedMax < admitEstimate then some .overInputCeiling else none

end CityPods.Dispatch
