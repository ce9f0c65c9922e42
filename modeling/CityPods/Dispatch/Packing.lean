import Mathlib.Tactic.Linarith
import Mathlib.Tactic.Positivity
import CityPods.Dispatch.Calibration

/-! # Packing to a route's limit

Producers size packets with one quantile of the calibration summary; the gates
that a packet meets scale the same estimate with two others.
-/

namespace CityPods.Dispatch

/-- A catalog route with the fields that calibration and packing read. -/
structure SizedRoute extends CatalogRoute where
  model : String := ""
  inputContextLimit : Option ℚ := none
  outputContextLimit : Option ℚ := none

/-- The recent input ratios and output sizes of a route. -/
structure CalibrationSummary where
  ratios : List ℚ := []
  outputs : List ℚ := []

def calibrationMinSamples : Nat := 16

def calibrationFullSamples : Nat := 64

def minRatio : ℚ := 1 / 4

def maxRatio : ℚ := 8

def percentile (values : List ℚ) (p : ℚ) : Option ℚ :=
  (values.insertionSort (· ≤ ·))[min (values.length - 1) (⌈p * values.length⌉ - 1).toNat]?

/-- What n samples leave to the prior. -/
def priorWeight (samples : Nat) : ℚ :=
  if samples < calibrationMinSamples then 1 else max 0 (1 - samples / calibrationFullSamples)

/-- The samples take over from the prior, within the allowed ratios. -/
def blend (weight prior learned : ℚ) : ℚ :=
  min maxRatio (max minRatio (weight * prior + (1 - weight) * learned))

structure Calibration where
  inputRatio : ℚ
  admitRatio : ℚ
  packRatio : ℚ
  outputForecast : Option ℚ

def inputHeadroom (route : SizedRoute) : ℚ :=
  if isGemini route.toCatalogRoute ∧ route.model.startsWith "google/gemma-4-" then 6 / 5 else 1

/-- With few samples the largest one stands in for the quantile. -/
def outputTail (outputs : List ℚ) : Option ℚ :=
  if calibrationFullSamples ≤ outputs.length then percentile outputs (19 / 20)
  else if calibrationMinSamples ≤ outputs.length then outputs.max?
  else none

def calibrationFor (route : SizedRoute) (summary : CalibrationSummary) : Calibration :=
  let samples := summary.ratios.length
  let prior := routeInputTokenRatio route.toCatalogRoute
  let quantile p := (percentile summary.ratios p).getD 0
  let learnedBlend := blend (priorWeight samples) prior
  let outputForecast := (outputTail summary.outputs).map fun tail => max 64 (⌈tail * (5 / 4)⌉ : ℚ)
  if calibrationMinSamples ≤ samples then
    let inputRatio :=
      learnedBlend (max (quantile (19 / 20) * inputHeadroom route) (quantile (99 / 100)))
    { inputRatio := inputRatio
      admitRatio := min inputRatio (learnedBlend (quantile (3 / 4) * (21 / 20)))
      packRatio := learnedBlend (quantile (19 / 20) * (21 / 20))
      outputForecast := outputForecast }
  else ⟨prior, prior, prior, outputForecast⟩

def statedLimits (route : SizedRoute) (ledger : RouteLedger) (now : ℚ) : List ℚ :=
  let learned := learnedCeilings ledger now
  ((hardInputCeilingLimit route.toCatalogRoute false).map fun ceiling =>
      max ceiling learned.acceptedMax).toList ++
    (if 0 < learned.rejectedMin then [learned.rejectedMin - 1] else []) ++
      (route.inputContextLimit.filter fun context => 0 < context).toList

/-- The largest raw estimate a packet for this route may carry. -/
def packingInputLimit (route : SizedRoute) (ledger : RouteLedger) (packRatio : Option ℚ)
    (now : ℚ) : Option ℚ :=
  let ratio := (packRatio.filter fun ratio => 0 < ratio).getD (routeInputTokenRatio route.toCatalogRoute)
  (statedLimits route ledger now).min?.map fun tightest => (⌊tightest / ratio⌋ : ℚ)

def overMinuteQuota (route : CatalogRoute) (admitEstimate : ℚ) : Bool :=
  isGemini route ∧ 0 < limitOf route.tpm ∧ limitOf route.tpm < admitEstimate

def contextLimit (route : SizedRoute) : ℚ :=
  if route.inputContextLimit.getD 0 = 0 then 32768 else route.inputContextLimit.getD 0

def outputLimit (route : SizedRoute) : ℚ :=
  if route.outputContextLimit.getD 0 = 0 then 1024 else route.outputContextLimit.getD 0

structure Sizing where
  inputRatio : Option ℚ := none
  admitRatio : Option ℚ := none
  ledger : RouteLedger := {}
  now : ℚ := 0
  skipSizeGate : Bool := false

/-- Check a request against the context limits of a route. -/
def routeFitsContext (route : SizedRoute) (inputTokens outputTokens : ℚ) (sizing : Sizing) : Bool :=
  let inputRatio := sizing.inputRatio.getD (routeInputTokenRatio route.toCatalogRoute)
  let scaled := scaledInputTokens inputTokens inputRatio
  (sizing.skipSizeGate ∨ inputSizeRefusal route.toCatalogRoute sizing.ledger inputTokens
      (some inputRatio) sizing.admitRatio sizing.now true = none) ∧
    scaled ≤ contextLimit route ∧ outputTokens ≤ outputLimit route ∧
      scaled + outputTokens ≤ contextLimit route

structure InputAdmitted (route : SizedRoute) (ledger : RouteLedger) (calibration : Calibration)
    (now raw : ℚ) : Prop where
  size : ∀ tolerant, inputSizeRefusal route.toCatalogRoute ledger raw (some calibration.inputRatio)
    (some calibration.admitRatio) now tolerant = none
  minute : overMinuteQuota route.toCatalogRoute (scaledInputTokens raw
    (minLimit calibration.inputRatio (some calibration.admitRatio))) = false
  context : scaledInputTokens raw calibration.inputRatio ≤ contextLimit route

structure WholeLimits (route : SizedRoute) (ledger : RouteLedger) : Prop where
  ceiling : ∀ limit ∈ route.hardInputCeiling, ∃ tokens : ℤ, limit = tokens
  tpm : ∀ limit ∈ route.tpm, ∃ tokens : ℤ, limit = tokens
  context : ∀ limit ∈ route.inputContextLimit, ∃ tokens : ℤ, limit = tokens
  accepted : ∃ tokens : ℤ, ledger.inputAcceptedMax = tokens
  rejected : ∃ tokens : ℤ, ledger.inputRejectedMin = tokens

/-- The estimate that fills the tightest limit at the packing ratio still fits the
context window at the reservation ratio, and a Gemini route's minute at the
admission ratio. -/
def RoomAtTightest (route : SizedRoute) (ledger : RouteLedger) (calibration : Calibration)
    (now : ℚ) : Prop :=
  ∀ tightest ∈ (statedLimits route ledger now).min?,
    ⌊tightest / calibration.packRatio⌋ * calibration.inputRatio ≤ contextLimit route ∧
      (isGemini route.toCatalogRoute → 0 < limitOf route.tpm →
        ⌊tightest / calibration.packRatio⌋ * calibration.admitRatio ≤ limitOf route.tpm)

end CityPods.Dispatch
