import CityPods.Foundation.DateTime
import CityPods.Foundation.Dict

/-! # The compute budget ledger

Per backend, the spend of the current provider cycle and the outstanding
reservations, and the runtimes learned from completed jobs. Amounts are exact
rationals.
-/

namespace CityPods.Compute

open Foundation

def monthKey (now : DateTime) : String := now.formatMonth

/-- The rollover date in a month, moved back to the last day of a short one. -/
def anchor (rollover year month : Nat) (month_valid : 1 ≤ month ∧ month ≤ 12) : DateTime :=
  .date year month (min (max 1 (min 31 rollover)) (daysInMonth year month)) month_valid (by
    have positive := daysInMonth_pos year month
    omega)

/-- The rollover date on which the cycle of `now` started. -/
def cycleStart (now : DateTime) (rolloverDayOfMonth : Nat) : DateTime :=
  let current := anchor rolloverDayOfMonth now.year now.month now.month_valid
  if current ≤ now then current
  else if january : now.month = 1 then
    anchor rolloverDayOfMonth (now.year - 1) 12 (by decide)
  else
    anchor rolloverDayOfMonth now.year (now.month - 1) (by
      have valid := now.month_valid
      omega)

def cycleKey (now : DateTime) (rolloverDayOfMonth : Nat) : String :=
  (cycleStart now rolloverDayOfMonth).formatDate

structure RuntimeEstimate where
  secondsPerAudioSecond : ℚ
  samples : Nat := 0
  updatedAt : Option DateTime := none
  lastEstimatedSeconds : Option ℚ := none
  lastActualSeconds : Option ℚ := none

def RuntimeEstimate.observe (estimate : RuntimeEstimate) (audioSeconds : ℚ)
    (estimatedSeconds : Option ℚ) (actualSeconds : ℚ) (now : DateTime) : RuntimeEstimate :=
  if audioSeconds ≤ 0 ∨ actualSeconds ≤ 0 then estimate
  else
    let alpha : ℚ := if estimate.samples < 10 then 3 / 10 else 1 / 5
    { secondsPerAudioSecond := max 0 ((1 - alpha) * estimate.secondsPerAudioSecond +
        alpha * (actualSeconds / audioSeconds))
      samples := estimate.samples + 1
      updatedAt := some now
      lastEstimatedSeconds := estimatedSeconds
      lastActualSeconds := some actualSeconds }

/-- `usedUnits` includes every reservation in `inflight`. -/
structure BackendLedger where
  usedUnits : ℚ := 0
  inflight : Dict String ℚ := []
  cycleKey : String := ""

def BackendLedger.inflightCount (led : BackendLedger) : Nat := led.inflight.length

/-- The spend once a reservation is settled: its estimate is exchanged for the
actual cost, or stays charged. -/
def BackendLedger.settledUnits (led : BackendLedger) (reserved : ℚ) : Option ℚ → ℚ
  | none => led.usedUnits
  | some actual => max 0 (led.usedUnits - reserved + actual)

structure Budget where
  month : String
  backends : Dict String BackendLedger := []
  runtimeEstimates : Dict String RuntimeEstimate := []

namespace Budget

/-- The named cycle, or the month where the name is missing or empty. -/
def targetCycle (budget : Budget) : Option String → String
  | none => budget.month
  | some cycle => if cycle = "" then budget.month else cycle

/-- The backend's ledger, zeroed if it belongs to another cycle. -/
def ledger (budget : Budget) (backend : String) (cycle : Option String) : BackendLedger :=
  let led := (budget.backends.get? backend).getD {}
  let target := budget.targetCycle cycle
  if led.cycleKey = target then led else { cycleKey := target }

def setLedger (budget : Budget) (backend : String) (led : BackendLedger) : Budget :=
  { budget with backends := budget.backends.set backend led }

/-- Spend is reset by `ledger` only; this moves the month marker. -/
def rollMonth (budget : Budget) (now : DateTime) : Budget :=
  { budget with month := monthKey now }

/-- The reset of the ledger that this check makes is the one `reserve` makes. -/
def available (budget : Budget) (backend : String) (cap : ℚ) (maxInflight : Nat) (est : ℚ)
    (cycle : Option String) : Bool :=
  let led := budget.ledger backend cycle
  decide (led.usedUnits + est ≤ cap) && decide (led.inflightCount < maxInflight)

def reserve (budget : Budget) (owner backend : String) (est : ℚ) (cycle : Option String) :
    Budget :=
  let led := budget.ledger backend cycle
  budget.setLedger backend
    { led with usedUnits := led.usedUnits + est, inflight := led.inflight.set owner est }

def observeRuntime (budget : Budget) (key : String) (audioSeconds actualRuntimeSeconds : ℚ)
    (estimatedRuntimeSeconds defaultSecondsPerAudioSecond : Option ℚ) (now : DateTime) :
    Budget :=
  let estimate := (budget.runtimeEstimates.get? key).getD
    { secondsPerAudioSecond := max 0 (defaultSecondsPerAudioSecond.getD
        (if audioSeconds > 0 then actualRuntimeSeconds / audioSeconds else 0)) }
  { budget with
    runtimeEstimates := budget.runtimeEstimates.set key
      (estimate.observe audioSeconds estimatedRuntimeSeconds actualRuntimeSeconds now) }

/-- Whether cleanup that names `cycle` may touch this ledger. -/
def cleans (led : BackendLedger) (cycle : Option String) : Bool :=
  cycle.all fun named => led.cycleKey == named

end Budget

/-- The runtime measurements a settlement may report. -/
structure RuntimeReport where
  estimateKey : Option String := none
  audioSeconds : Option ℚ := none
  actualRuntimeSeconds : Option ℚ := none
  estimatedRuntimeSeconds : Option ℚ := none

namespace Budget

def observeReport (budget : Budget) (report : RuntimeReport) (now : DateTime) : Budget :=
  match report.estimateKey, report.audioSeconds, report.actualRuntimeSeconds with
  | some key, some audioSeconds, some actualRuntimeSeconds =>
      if key = "" then budget
      else
        budget.observeRuntime key audioSeconds actualRuntimeSeconds
          report.estimatedRuntimeSeconds none now
  | _, _, _ => budget

def settle (budget : Budget) (owner backend : String) (actual : Option ℚ)
    (cycle : Option String) (report : RuntimeReport) (now : DateTime) : Budget :=
  match budget.backends.get? backend with
  | none => budget
  | some led =>
      if cleans led cycle then
        match led.inflight.get? owner with
        | none => budget
        | some reserved =>
            let settled := { led with
              inflight := led.inflight.erase owner
              usedUnits := led.settledUnits reserved actual }
            (budget.setLedger backend settled).observeReport report now
      else budget

def release (budget : Budget) (owner backend : String) (cycle : Option String) : Budget :=
  match budget.backends.get? backend with
  | none => budget
  | some led =>
      if cleans led cycle then
        match led.inflight.get? owner with
        | none => budget
        | some reserved =>
            budget.setLedger backend { led with
              inflight := led.inflight.erase owner
              usedUnits := max 0 (led.usedUnits - reserved) }
      else budget

/-- The ledger as it is read back: its serializer sorts every key. -/
def serialize (budget : Budget) : Budget where
  month := budget.month
  backends := (budget.backends.mapValues fun led =>
    { led with inflight := led.inflight.sortKeys }).sortKeys
  runtimeEstimates := budget.runtimeEstimates.sortKeys

end Budget

end CityPods.Compute
