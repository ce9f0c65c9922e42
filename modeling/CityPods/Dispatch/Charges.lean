import CityPods.Dispatch.DailyQuota
import CityPods.Dispatch.Settlement

/-! # What a call is charged

A claim charges a route's token bucket and counts a request. The settlement of
the call is compared with a history of the route in which that charge is left
out and everything else is the same.
-/

namespace CityPods.Dispatch

/-! ## A history with a claim and without it -/

/-- A ledger brought up to an instant: its windows opened and its bucket
refilled, and nothing charged. -/
def idleAt (calendar : Calendar) (route : CatalogRoute) (row : RouteLedger) (instant : ℚ) :
    RouteLedger :=
  { row with
    rpmWindowStart :=
      if rpmWindowDurationMs route ≤ instant - row.rpmWindowStart then instant
      else row.rpmWindowStart
    rpmCount :=
      if rpmWindowDurationMs route ≤ instant - row.rpmWindowStart then 0 else row.rpmCount
    rpdDayKey := calendar.routeDay route instant
    rpdCount := if row.rpdDayKey = calendar.routeDay route instant then row.rpdCount else 0
    fullTokenBudget := availableTokenBudget (limitOf route.tpm) row instant
    tokenBudgetUpdatedAt := instant }

/-- The first ledger has seen the claim of a job and the second has not; other
work on the route is in both. The bucket covers what each claim charges. -/
inductive Alongside (calendar : Calendar) (route : CatalogRoute) (job : JobRow) :
    RouteLedger → RouteLedger → Prop
  | claim {row : RouteLedger} (notBeforeAt : ℚ) (leaseToken : Option String)
      (charge : 0 ≤ job.tokenReservation)
      (covered : job.tokenReservation ≤
        availableTokenBudget (limitOf route.tpm) row notBeforeAt)
      (minute : job.reservationRpmWindowStart = (applyProvisionalReservation calendar route row
        job.tokenReservation notBeforeAt leaseToken).rpmWindowStart)
      (day : job.reservationRpdDayKey = (applyProvisionalReservation calendar route row
        job.tokenReservation notBeforeAt leaseToken).rpdDayKey) :
      Alongside calendar route job
        (applyProvisionalReservation calendar route row job.tokenReservation notBeforeAt leaseToken)
        (idleAt calendar route row notBeforeAt)
  | otherClaim {row unclaimed : RouteLedger} (reservation notBeforeAt : ℚ)
      (leaseToken : Option String) (history : Alongside calendar route job row unclaimed)
      (covered : reservation ≤ availableTokenBudget (limitOf route.tpm) row notBeforeAt) :
      Alongside calendar route job
        (applyProvisionalReservation calendar route row reservation notBeforeAt leaseToken)
        (applyProvisionalReservation calendar route unclaimed reservation notBeforeAt leaseToken)
  | otherResult {row unclaimed : RouteLedger} (config : Config) (rejectedInput : ℚ)
      (other : JobRow) (result : CallResult) (draws : Draws) (now : ℚ)
      (history : Alongside calendar route job row unclaimed) :
      Alongside calendar route job
        (settleAlone config route rejectedInput other result draws now row)
        (settleAlone config route rejectedInput other result draws now unclaimed)

/-- The charge of a claim, as it stands in the one ledger and not in the other. -/
structure ChargedFor (job : JobRow) (row unclaimed : RouteLedger) : Prop where
  charge : 0 ≤ job.tokenReservation
  rpmWindowStart : row.rpmWindowStart = unclaimed.rpmWindowStart
  rpdDayKey : row.rpdDayKey = unclaimed.rpdDayKey
  tokenBudgetUpdatedAt : row.tokenBudgetUpdatedAt = unclaimed.tokenBudgetUpdatedAt
  fullTokenBudget : row.fullTokenBudget = unclaimed.fullTokenBudget - job.tokenReservation

section

variable {calendar : Calendar} {route : CatalogRoute} {job : JobRow} {row unclaimed : RouteLedger}

/-- A claim of another job moves both ledgers alike. -/
theorem ChargedFor.otherClaim (charged : ChargedFor job row unclaimed)
    (limited : 0 < limitOf route.tpm) (reservation notBeforeAt : ℚ) (leaseToken : Option String)
    (covered : reservation ≤ availableTokenBudget (limitOf route.tpm) row notBeforeAt) :
    ChargedFor job
      (applyProvisionalReservation calendar route row reservation notBeforeAt leaseToken)
      (applyProvisionalReservation calendar route unclaimed reservation notBeforeAt
        leaseToken) := by
  have rpm := applyProvisionalReservation_rpm calendar route row reservation notBeforeAt leaseToken
  have rpm' := applyProvisionalReservation_rpm calendar route unclaimed reservation notBeforeAt
    leaseToken
  have rpd := applyProvisionalReservation_rpd calendar route row reservation notBeforeAt leaseToken
  have rpd' := applyProvisionalReservation_rpd calendar route unclaimed reservation notBeforeAt
    leaseToken
  have bucket := applyProvisionalReservation_bucket calendar route row reservation notBeforeAt
    leaseToken limited
  have bucket' := applyProvisionalReservation_bucket calendar route unclaimed reservation
    notBeforeAt leaseToken limited
  have refilled : availableTokenBudget (limitOf route.tpm) row notBeforeAt =
      availableTokenBudget (limitOf route.tpm) unclaimed notBeforeAt - job.tokenReservation := by
    unfold availableTokenBudget
    rw [charged.fullTokenBudget, charged.tokenBudgetUpdatedAt]
    ring
  have charge := charged.charge
  constructor
  · exact charge
  · rw [rpm.1, rpm'.1, charged.rpmWindowStart]
  · rw [rpd.1, rpd'.1]
  · rw [bucket.2, bucket'.2]
  · rw [bucket.1, bucket'.1, max_eq_right (by linarith), max_eq_right (by linarith), refilled]
    ring

theorem Alongside.charged (limited : 0 < limitOf route.tpm)
    (history : Alongside calendar route job row unclaimed) : ChargedFor job row unclaimed := by
  induction history with
  | @claim row notBeforeAt leaseToken charge covered _ _ =>
      have rpm := applyProvisionalReservation_rpm calendar route row job.tokenReservation
        notBeforeAt leaseToken
      have rpd := applyProvisionalReservation_rpd calendar route row job.tokenReservation
        notBeforeAt leaseToken
      have bucket := applyProvisionalReservation_bucket calendar route row job.tokenReservation
        notBeforeAt leaseToken limited
      refine ⟨charge, rpm.1, rpd.1, bucket.2, bucket.1.trans ?_⟩
      rw [max_eq_right (by linarith)]
      rfl
  | otherClaim reservation notBeforeAt leaseToken _ covered induction =>
      exact induction.otherClaim limited reservation notBeforeAt leaseToken covered
  | @otherResult row unclaimed config rejectedInput other result draws now _ induction =>
      have settled := settleAlone_requests config route rejectedInput other result draws now row
        limited
      have settled' := settleAlone_requests config route rejectedInput other result draws now
        unclaimed limited
      constructor
      · exact induction.charge
      · rw [settled.1, settled'.1, induction.rpmWindowStart]
      · rw [settled.2.1, settled'.2.1, induction.rpdDayKey]
      · rw [settled.2.2.1, settled'.2.2.1, induction.tokenBudgetUpdatedAt]
      · rw [settleAlone_bucket config route rejectedInput other result draws now _ limited,
          settleAlone_bucket config route rejectedInput other result draws now _ limited,
          induction.fullTokenBudget]
        ring

/-! ## What a settlement leaves charged -/

/-- What the settlement of a job should leave charged, against the ledger without
its claim. -/
structure ChargesUsed (route : CatalogRoute) (job : JobRow) (result : CallResult)
    (settled unclaimed : RouteLedger) : Prop where
  measured : ∀ counted, result.countedTokens route = some counted →
    unclaimed.fullTokenBudget - settled.fullTokenBudget = counted
  unstarted : result.actualStartAt = none →
    unclaimed.fullTokenBudget - settled.fullTokenBudget = 0 ∧
      (settled.rpmWindowStart = job.reservationRpmWindowStart →
        settled.rpmCount = unclaimed.rpmCount) ∧
      (settled.rpdDayKey = job.reservationRpdDayKey → settled.rpdCount = unclaimed.rpdCount)

/-- A counter holds one request more than it would without the claim, or is empty. -/
def HoldsClaim (count unclaimed : ℚ) : Prop :=
  1 ≤ count ∧ count = unclaimed + 1 ∨ count < 1 ∧ unclaimed = 0

/-- The tokens a result leaves charged to a job that keeps its charge. -/
def tokensKept (route : CatalogRoute) (job : JobRow) (result : CallResult) : ℚ :=
  match result.countedTokens route with
  | some counted => job.tokenReservation - settledReservation job result + counted
  | none => job.tokenReservation

/-- Usage is measured only by results that keep their charge, and a call that
never started has its charge given back. -/
structure SettlesByUse (route : CatalogRoute) (job : JobRow) (result : CallResult)
    (row unclaimed : RouteLedger) : Prop where
  measured : ∀ counted, result.countedTokens route = some counted →
    if refunded job result then counted = job.tokenReservation - settledReservation job result
    else settledReservation job result = job.tokenReservation
  unstarted : result.actualStartAt = none →
    if refunded job result then
      settledReservation job result = job.tokenReservation ∧
        (row.rpmWindowStart = job.reservationRpmWindowStart →
          HoldsClaim row.rpmCount unclaimed.rpmCount) ∧
        (row.rpdDayKey = job.reservationRpdDayKey →
          HoldsClaim row.rpdCount unclaimed.rpdCount)
    else
      tokensKept route job result = 0 ∧
        (row.rpmWindowStart = job.reservationRpmWindowStart →
          row.rpmCount = unclaimed.rpmCount) ∧
        (row.rpdDayKey = job.reservationRpdDayKey → row.rpdCount = unclaimed.rpdCount)

theorem givenBack_iff (count unclaimed : ℚ) :
    max 0 (count - 1) = unclaimed ↔ HoldsClaim count unclaimed := by
  unfold HoldsClaim
  rcases le_or_gt 1 count with full | empty
  · rw [max_eq_right (by linarith)]
    constructor
    · intro equal
      exact .inl ⟨full, by linarith⟩
    · rintro (⟨_, equal⟩ | ⟨below, _⟩)
      · linarith
      · linarith
  · rw [max_eq_left (by linarith)]
    constructor
    · intro equal
      exact .inr ⟨empty, equal.symm⟩
    · rintro (⟨full, _⟩ | ⟨_, equal⟩)
      · linarith
      · exact equal.symm

theorem charged_after (limited : 0 < limitOf route.tpm)
    (charged : ChargedFor job row unclaimed) (config : Config) (rejectedInput : ℚ)
    (result : CallResult) (draws : Draws) (now : ℚ) :
    unclaimed.fullTokenBudget -
        (settleAlone config route rejectedInput job result draws now row).fullTokenBudget =
      if refunded job result then job.tokenReservation - settledReservation job result
      else tokensKept route job result := by
  rw [settleAlone_bucket config route rejectedInput job result draws now row limited,
    charged.fullTokenBudget]
  unfold settlementCredit tokensKept servedDelta
  rw [if_pos limited]
  split
  · ring
  · cases result.countedTokens route with
    | none => ring
    | some counted => ring

theorem measured_iff (limited : 0 < limitOf route.tpm)
    (charged : ChargedFor job row unclaimed) (config : Config) (rejectedInput : ℚ)
    (result : CallResult) (draws : Draws) (now counted : ℚ)
    (usage : result.countedTokens route = some counted) :
    unclaimed.fullTokenBudget - (settleAlone config route rejectedInput job result draws now
        row).fullTokenBudget = counted ↔
      if refunded job result then counted = job.tokenReservation - settledReservation job result
      else settledReservation job result = job.tokenReservation := by
  rw [charged_after limited charged config rejectedInput result draws now]
  unfold tokensKept
  rw [usage]
  split
  · exact eq_comm
  · dsimp only
    constructor
    · intro equal
      linarith
    · intro equal
      linarith

/-- The settlement of a result charges what the call used exactly when the result
settles by use. -/
theorem settlement_charges_used (calendar : Calendar) (route : CatalogRoute) (job : JobRow)
    (limited : 0 < limitOf route.tpm) (row unclaimed : RouteLedger)
    (history : Alongside calendar route job row unclaimed) (config : Config)
    (rejectedInput : ℚ) (result : CallResult) (draws : Draws) (now : ℚ) :
    ChargesUsed route job result
        (settleAlone config route rejectedInput job result draws now row) unclaimed ↔
      SettlesByUse route job result row unclaimed := by
  have charged := history.charged limited
  have after := charged_after limited charged config rejectedInput result draws now
  have requests := settleAlone_requests config route rejectedInput job result draws now row limited
  dsimp only at requests
  obtain ⟨minute, day, _, counts, daily⟩ := requests
  have unstarted : (unclaimed.fullTokenBudget - (settleAlone config route rejectedInput job result
        draws now row).fullTokenBudget = 0 ∧
      ((settleAlone config route rejectedInput job result draws now row).rpmWindowStart =
          job.reservationRpmWindowStart →
        (settleAlone config route rejectedInput job result draws now row).rpmCount =
          unclaimed.rpmCount) ∧
      ((settleAlone config route rejectedInput job result draws now row).rpdDayKey =
          job.reservationRpdDayKey →
        (settleAlone config route rejectedInput job result draws now row).rpdCount =
          unclaimed.rpdCount)) ↔
      if refunded job result then
        settledReservation job result = job.tokenReservation ∧
          (row.rpmWindowStart = job.reservationRpmWindowStart →
            HoldsClaim row.rpmCount unclaimed.rpmCount) ∧
          (row.rpdDayKey = job.reservationRpdDayKey →
            HoldsClaim row.rpdCount unclaimed.rpdCount)
      else
        tokensKept route job result = 0 ∧
          (row.rpmWindowStart = job.reservationRpmWindowStart →
            row.rpmCount = unclaimed.rpmCount) ∧
          (row.rpdDayKey = job.reservationRpdDayKey → row.rpdCount = unclaimed.rpdCount) := by
    rw [after, minute, day, counts, daily]
    by_cases refund : refunded job result = true
    · simp only [refund, if_true, true_and]
      refine and_congr ?_ (and_congr (imp_congr_right fun current => ?_)
        (imp_congr_right fun current => ?_))
      · rw [sub_eq_zero]
        exact eq_comm
      · rw [if_pos current]
        exact givenBack_iff _ _
      · rw [if_pos current]
        exact givenBack_iff _ _
    · simp only [refund, Bool.false_eq_true, false_and, if_false]
  constructor
  · intro used
    exact ⟨fun counted usage => (measured_iff limited charged config rejectedInput result draws now
      counted usage).mp (used.measured counted usage),
      fun never => unstarted.mp (used.unstarted never)⟩
  · intro settles
    exact ⟨fun counted usage => (measured_iff limited charged config rejectedInput result draws now
      counted usage).mpr (settles.measured counted usage),
      fun never => unstarted.mpr (settles.unstarted never)⟩

end

/-! ## One claim and three results -/

/-- A route with 6000 tokens a minute. -/
def meteredRoute : CatalogRoute where
  provider := "groq"
  rpm := some 30
  rpd := some 1000
  tpm := some 6000

def noonMs : ℚ := 1728043200000

def noonJob : JobRow where
  id := "a"
  idempotencyKey := "a"
  requestDigest := "digest"
  state := .leased
  leaseToken := some "lease"
  leaseRouteId := some "metered"
  tokenReservation := 1000
  reservationRpmWindowStart := noonMs
  reservationRpdDayKey := "2024-10-04"
  reservationTpmWindowStart := noonMs

def freshRow : RouteLedger := newRouteRow 30000 noonMs

theorem noonClaim : Alongside utcCalendar meteredRoute noonJob
    (applyProvisionalReservation utcCalendar meteredRoute freshRow noonJob.tokenReservation noonMs
      (some "lease"))
    (idleAt utcCalendar meteredRoute freshRow noonMs) :=
  .claim noonMs (some "lease") (by decide +kernel) (by decide +kernel) (by decide +kernel)
    (by decide +kernel)

def measuredReply : CallResult where
  jobId := "a"
  leaseToken := "lease"
  outcome := .success
  providerStatusCode := some 200
  observedInputTokens := some 700
  observedOutputTokens := some 100
  actualStartAt := some noonMs

/-- A call whose lease no longer covered it. -/
def deferredCall : CallResult where
  jobId := "a"
  leaseToken := "lease"
  outcome := .deferredLate

def unstoredReply : CallResult :=
  { measuredReply with
    outcome := .retryableError
    failureClass := some .serverError }

theorem settlement_charges_used_measured :
    ChargesUsed meteredRoute noonJob measuredReply
        (settleAlone {} meteredRoute 0 noonJob measuredReply {} (noonMs + 5000)
          (applyProvisionalReservation utcCalendar meteredRoute freshRow noonJob.tokenReservation
            noonMs (some "lease")))
        (idleAt utcCalendar meteredRoute freshRow noonMs) ↔
      SettlesByUse meteredRoute noonJob measuredReply
        (applyProvisionalReservation utcCalendar meteredRoute freshRow noonJob.tokenReservation
          noonMs (some "lease"))
        (idleAt utcCalendar meteredRoute freshRow noonMs) :=
  settlement_charges_used utcCalendar meteredRoute noonJob (by decide) _ _ noonClaim {} 0
    measuredReply {} (noonMs + 5000)

/-- A deferred call keeps its whole charge, and a measured reply that could not be
stored keeps none. -/
theorem deferred_and_unstored_mischarged :
    ∃ row unclaimed, Alongside utcCalendar meteredRoute noonJob row unclaimed ∧
      ¬ ChargesUsed meteredRoute noonJob deferredCall
        (settleAlone {} meteredRoute 0 noonJob deferredCall {} (noonMs + 5000) row) unclaimed ∧
      ¬ ChargesUsed meteredRoute noonJob unstoredReply
        (settleAlone {} meteredRoute 0 noonJob unstoredReply {} (noonMs + 5000) row)
        unclaimed := by
  refine ⟨_, _, noonClaim, ?_, ?_⟩
  · intro used
    have returned := (used.unstarted rfl).1
    revert returned
    decide +kernel
  · intro used
    have charged := used.measured 800 (by decide +kernel)
    revert charged
    decide +kernel

end CityPods.Dispatch
