import Mathlib.Algebra.Order.Ring.Rat
import CityPods.Foundation.Dict

/-! # Route ledgers

The static limits of a route in the catalog, and the ledger row the dispatch
coordinator keeps for it. Numbers are exact rationals, times are milliseconds
since the epoch, and an absent column is `none`.
-/

namespace CityPods.Dispatch

open Foundation

inductive FailureClass
  | upstreamCapacity
  | gatewayLimit
  | serverError
  | routeInputLimit
  | paymentRequired
  | requestDefect
  | routeUnavailable
  | freePromptCap
  | ownRpm
  | ownRpd
  | ownTpm
  | ownTpd
  | unknown429
  | structuredOutputEmpty
  | structuredOutputInvalid
  | outputBudgetExhausted
  | providerResponseTimeout
  | unlisted (name : String)
  deriving DecidableEq

/-- A route of the compiled catalog, merged with its provider's reset timezone. -/
structure CatalogRoute where
  provider : String
  accountId : Option String := none
  rpm : Option ℚ := none
  rpd : Option ℚ := none
  tpm : Option ℚ := none
  tpd : Option ℚ := none
  providerTpm : Option ℚ := none
  requestStartMarginSeconds : Option ℚ := none
  tpmWindowMarginSeconds : Option ℚ := none
  inputTokenRatio : Option ℚ := none
  hardInputCeiling : Option ℚ := none
  hardInputCeilingTolerance : Option ℚ := none
  resetTimezone : Option String := none

/-- `Number(limit)` for a limit that only counts where it is positive. -/
def limitOf (limit : Option ℚ) : ℚ := limit.getD 0

def isGemini (route : CatalogRoute) : Bool := route.provider = "gemini"

structure InputEntry where
  atMs : ℚ
  tokens : ℚ
  leaseToken : Option String := none
  scheduledAt : Option ℚ := none
  deriving DecidableEq

/-- A row of the `routes` table. -/
structure RouteLedger where
  rpmWindowStart : ℚ := 0
  rpmCount : ℚ := 0
  rpdWindowStart : ℚ := 0
  rpdCount : ℚ := 0
  rpdDayKey : String := ""
  tpmWindowStart : ℚ := 0
  tpmReserved : ℚ := 0
  fullTokenBudget : ℚ := 0
  tokenBudgetUpdatedAt : ℚ := 0
  provisionalReservation : ℚ := 0
  settledUsage : ℚ := 0
  costAccumulated : ℚ := 0
  throttleStreak : ℚ := 0
  lastProviderStatus : Option ℚ := none
  blockedUntil : Option ℚ := none
  bufferSeconds : ℚ := 0
  bufferUpdatedAt : ℚ := 0
  paymentRequiredStreak : ℚ := 0
  upstreamCapacityStreak : ℚ := 0
  lastFailureClass : Option FailureClass := none
  tpdUpdatedAt : ℚ := 0
  tpdUsed : ℚ := 0
  promptCapEstimate : ℚ := 0
  inputWindow : List InputEntry := []
  inputAcceptedMax : ℚ := 0
  inputAcceptedAt : ℚ := 0
  inputRejectedMin : ℚ := 0
  inputRejectedAt : ℚ := 0
  deriving DecidableEq

/-- A row of the `providers` table. -/
structure ProviderLedger where
  tpmWindowStart : ℚ := 0
  tpmReserved : ℚ := 0
  fullTokenBudget : ℚ := 0
  tokenBudgetUpdatedAt : ℚ := 0
  deriving DecidableEq

def fullTokenBudgetWindows : ℚ := 5

/-- The row of a route that is touched for the first time. -/
def newRouteRow (seedBudget now : ℚ) : RouteLedger where
  fullTokenBudget := seedBudget
  tokenBudgetUpdatedAt := now

def getOrCreateRouteLedger (routes : Dict String RouteLedger) (routeId : String) (now : ℚ)
    (tpm : Option ℚ) : RouteLedger :=
  (routes.get? routeId).getD (newRouteRow (limitOf tpm * fullTokenBudgetWindows) now)

/-- What the rows hold provisionally; a route without a row holds nothing. -/
def provisionalReservations (routes : Dict String RouteLedger) (routeId : String) : ℚ :=
  (routes.get? routeId).elim 0 RouteLedger.provisionalReservation

theorem provisionalReservations_set (routes : Dict String RouteLedger) (routeId : String)
    (row : RouteLedger) :
    provisionalReservations (routes.set routeId row) =
      Function.update (provisionalReservations routes) routeId row.provisionalReservation := by
  funext other
  unfold provisionalReservations
  rw [Dict.get?_set, Function.update_apply]
  by_cases same : routeId = other
  · rw [if_pos same, if_pos same.symm]
    rfl
  · rw [if_neg same, if_neg (Ne.symm same)]

/-- A row that is created holds nothing. -/
theorem getOrCreateRouteLedger_provisional (routes : Dict String RouteLedger) (routeId : String)
    (now : ℚ) (tpm : Option ℚ) :
    (getOrCreateRouteLedger routes routeId now tpm).provisionalReservation =
      provisionalReservations routes routeId := by
  unfold getOrCreateRouteLedger provisionalReservations
  cases routes.get? routeId <;> rfl

end CityPods.Dispatch
