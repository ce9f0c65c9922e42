import CityPods.Dispatch.Pacing

/-! # Reservations

What a claim charges to a route's ledger, and the lane of one route in a claim:
each job starts where the ledger left by the jobs before it allows.
-/

namespace CityPods.Dispatch

/-! ## Charging a reservation -/

/-- Count one more request, opening a new minute window once the old one is over. -/
def countMinute (route : CatalogRoute) (ledger : RouteLedger) (notBeforeAt : ℚ) : RouteLedger :=
  if rpmWindowDurationMs route ≤ notBeforeAt - ledger.rpmWindowStart then
    { ledger with rpmWindowStart := notBeforeAt, rpmCount := 1 }
  else { ledger with rpmCount := ledger.rpmCount + 1 }

/-- Count one more request on the provider's calendar day of its start. -/
def countDay (calendar : Calendar) (route : CatalogRoute) (ledger : RouteLedger)
    (notBeforeAt : ℚ) : RouteLedger :=
  let rpdDayKey := calendar.routeDay route notBeforeAt
  if ledger.rpdDayKey ≠ rpdDayKey then
    { ledger with rpdWindowStart := notBeforeAt, rpdDayKey := rpdDayKey, rpdCount := 1 }
  else { ledger with rpdCount := ledger.rpdCount + 1 }

/-- Only a reservation that fits one window takes part in the token window. -/
def reserveWindow (route : CatalogRoute) (ledger : RouteLedger) (reservation notBeforeAt : ℚ) :
    RouteLedger :=
  let tpm := limitOf route.tpm
  if 0 < tpm ∧ reservation ≤ tpm then
    if tpmWindowSpanMs route ≤ notBeforeAt - ledger.tpmWindowStart then
      { ledger with tpmWindowStart := notBeforeAt, tpmReserved := reservation }
    else { ledger with tpmReserved := ledger.tpmReserved + reservation }
  else ledger

def reserveBudget (route : CatalogRoute) (ledger : RouteLedger) (reservation notBeforeAt : ℚ) :
    RouteLedger :=
  let tpm := limitOf route.tpm
  if 0 < tpm then
    { ledger with
      fullTokenBudget := max 0 (availableTokenBudget tpm ledger notBeforeAt - reservation)
      tokenBudgetUpdatedAt := notBeforeAt }
  else ledger

def reserveDailyTokens (route : CatalogRoute) (ledger : RouteLedger)
    (reservation notBeforeAt : ℚ) : RouteLedger :=
  { ledger with
    tpdUsed :=
      if 0 < limitOf route.tpd then dailyTokenDebt route ledger notBeforeAt + reservation else 0
    tpdUpdatedAt := notBeforeAt }

def reserveInput (route : CatalogRoute) (ledger : RouteLedger) (reservation notBeforeAt : ℚ)
    (leaseToken : Option String) : RouteLedger :=
  { ledger with
    inputWindow :=
      if isGemini route then
        (inputWindow ledger).filter
            (fun entry => decide (notBeforeAt - tpmWindowSpanMs route < entry.atMs)) ++
          [{ atMs := notBeforeAt, tokens := reservation, leaseToken := leaseToken,
             scheduledAt := leaseToken.map fun _ => notBeforeAt }]
      else [] }

/-- Advance a ledger for one reservation that takes effect at `notBeforeAt`. -/
def applyProvisionalReservation (calendar : Calendar) (route : CatalogRoute)
    (ledger : RouteLedger) (reservation notBeforeAt : ℚ) (leaseToken : Option String) :
    RouteLedger :=
  let ledger := countMinute route ledger notBeforeAt
  let ledger := countDay calendar route ledger notBeforeAt
  let ledger := reserveWindow route ledger reservation notBeforeAt
  let ledger := reserveBudget route ledger reservation notBeforeAt
  let ledger := reserveDailyTokens route ledger reservation notBeforeAt
  let ledger := reserveInput route ledger reservation notBeforeAt leaseToken
  { ledger with provisionalReservation := ledger.provisionalReservation + reservation }

def applyProviderProvisionalReservation (providerTpm : Option ℚ) (ledger : ProviderLedger)
    (reservation notBeforeAt : ℚ) : ProviderLedger :=
  let tpm := limitOf providerTpm
  if tpm ≤ 0 then ledger
  else
    let refilled := min (tpm * fullTokenBudgetWindows) (ledger.fullTokenBudget +
      max 0 (notBeforeAt - ledger.tokenBudgetUpdatedAt) * tpm / msPerMinute)
    let windowed :=
      if reservation ≤ tpm then
        if msPerMinute ≤ notBeforeAt - ledger.tpmWindowStart then
          { ledger with tpmWindowStart := notBeforeAt, tpmReserved := reservation }
        else { ledger with tpmReserved := ledger.tpmReserved + reservation }
      else ledger
    { windowed with
      fullTokenBudget := max 0 (refilled - reservation)
      tokenBudgetUpdatedAt := notBeforeAt }

/-! ## The columns of a charged ledger -/

structure RequestCounters where
  rpmWindowStart : ℚ
  rpmCount : ℚ
  rpdDayKey : String
  rpdCount : ℚ

def RouteLedger.requestCounters (ledger : RouteLedger) : RequestCounters :=
  ⟨ledger.rpmWindowStart, ledger.rpmCount, ledger.rpdDayKey, ledger.rpdCount⟩

section

variable (calendar : Calendar) (route : CatalogRoute) (ledger : RouteLedger)
  (reservation notBeforeAt : ℚ) (leaseToken : Option String)

@[simp] theorem reserveWindow_requestCounters :
    (reserveWindow route ledger reservation notBeforeAt).requestCounters =
      ledger.requestCounters := by
  unfold reserveWindow
  dsimp only
  split
  · split <;> rfl
  · rfl

@[simp] theorem reserveBudget_requestCounters :
    (reserveBudget route ledger reservation notBeforeAt).requestCounters =
      ledger.requestCounters := by
  unfold reserveBudget
  dsimp only
  split <;> rfl

@[simp] theorem reserveDailyTokens_requestCounters :
    (reserveDailyTokens route ledger reservation notBeforeAt).requestCounters =
      ledger.requestCounters := rfl

@[simp] theorem reserveInput_requestCounters :
    (reserveInput route ledger reservation notBeforeAt leaseToken).requestCounters =
      ledger.requestCounters := rfl

theorem applyProvisionalReservation_requestCounters :
    (applyProvisionalReservation calendar route ledger reservation notBeforeAt
        leaseToken).requestCounters =
      (countDay calendar route (countMinute route ledger notBeforeAt)
        notBeforeAt).requestCounters := by
  show (reserveInput route (reserveDailyTokens route (reserveBudget route (reserveWindow route
    (countDay calendar route (countMinute route ledger notBeforeAt) notBeforeAt) reservation
      notBeforeAt) reservation notBeforeAt) reservation notBeforeAt) reservation notBeforeAt
        leaseToken).requestCounters = _
  rw [reserveInput_requestCounters, reserveDailyTokens_requestCounters,
    reserveBudget_requestCounters, reserveWindow_requestCounters]

theorem countedRequests :
    (countDay calendar route (countMinute route ledger notBeforeAt) notBeforeAt).requestCounters =
      { rpmWindowStart :=
          if rpmWindowDurationMs route ≤ notBeforeAt - ledger.rpmWindowStart then notBeforeAt
          else ledger.rpmWindowStart
        rpmCount :=
          if rpmWindowDurationMs route ≤ notBeforeAt - ledger.rpmWindowStart then 1
          else ledger.rpmCount + 1
        rpdDayKey := calendar.routeDay route notBeforeAt
        rpdCount :=
          if ledger.rpdDayKey = calendar.routeDay route notBeforeAt then ledger.rpdCount + 1
          else 1 } := by
  unfold countDay countMinute
  by_cases rolled : rpmWindowDurationMs route ≤ notBeforeAt - ledger.rpmWindowStart <;>
    by_cases same : ledger.rpdDayKey = calendar.routeDay route notBeforeAt <;>
      simp [rolled, same, RouteLedger.requestCounters]

theorem applyProvisionalReservation_rpd :
    (applyProvisionalReservation calendar route ledger reservation notBeforeAt
        leaseToken).rpdDayKey = calendar.routeDay route notBeforeAt ∧
      (applyProvisionalReservation calendar route ledger reservation notBeforeAt
        leaseToken).rpdCount =
        if ledger.rpdDayKey = calendar.routeDay route notBeforeAt then ledger.rpdCount + 1
        else 1 := by
  have counted := (applyProvisionalReservation_requestCounters calendar route ledger reservation
    notBeforeAt leaseToken).trans (countedRequests calendar route ledger notBeforeAt)
  exact ⟨congrArg RequestCounters.rpdDayKey counted, congrArg RequestCounters.rpdCount counted⟩

theorem applyProvisionalReservation_rpm :
    (applyProvisionalReservation calendar route ledger reservation notBeforeAt
        leaseToken).rpmWindowStart =
        (if rpmWindowDurationMs route ≤ notBeforeAt - ledger.rpmWindowStart then notBeforeAt
          else ledger.rpmWindowStart) ∧
      (applyProvisionalReservation calendar route ledger reservation notBeforeAt
        leaseToken).rpmCount =
        if rpmWindowDurationMs route ≤ notBeforeAt - ledger.rpmWindowStart then 1
        else ledger.rpmCount + 1 := by
  have counted := (applyProvisionalReservation_requestCounters calendar route ledger reservation
    notBeforeAt leaseToken).trans (countedRequests calendar route ledger notBeforeAt)
  exact ⟨congrArg RequestCounters.rpmWindowStart counted,
    congrArg RequestCounters.rpmCount counted⟩

theorem applyProvisionalReservation_provisional :
    (applyProvisionalReservation calendar route ledger reservation notBeforeAt
        leaseToken).provisionalReservation = ledger.provisionalReservation + reservation := by
  have minute : (countMinute route ledger notBeforeAt).provisionalReservation =
      ledger.provisionalReservation := by
    unfold countMinute
    split <;> rfl
  have day : (countDay calendar route (countMinute route ledger notBeforeAt)
      notBeforeAt).provisionalReservation = ledger.provisionalReservation := by
    unfold countDay
    dsimp only
    split <;> exact minute
  have window : (reserveWindow route (countDay calendar route (countMinute route ledger notBeforeAt)
      notBeforeAt) reservation notBeforeAt).provisionalReservation =
        ledger.provisionalReservation := by
    unfold reserveWindow
    dsimp only
    split
    · split <;> exact day
    · exact day
  have budget : (reserveBudget route (reserveWindow route (countDay calendar route (countMinute
      route ledger notBeforeAt) notBeforeAt) reservation notBeforeAt) reservation
        notBeforeAt).provisionalReservation = ledger.provisionalReservation := by
    unfold reserveBudget
    dsimp only
    split <;> exact window
  exact congrArg (· + reservation) budget

end

/-- The columns of a ledger that limit what may start, with their windows. -/
structure QuotaColumns where
  rpmWindowStart : ℚ
  rpmCount : ℚ
  rpdDayKey : String
  rpdCount : ℚ
  tpmWindowStart : ℚ
  tpmReserved : ℚ
  fullTokenBudget : ℚ
  tokenBudgetUpdatedAt : ℚ

def RouteLedger.quota (row : RouteLedger) : QuotaColumns :=
  ⟨row.rpmWindowStart, row.rpmCount, row.rpdDayKey, row.rpdCount, row.tpmWindowStart,
    row.tpmReserved, row.fullTokenBudget, row.tokenBudgetUpdatedAt⟩

section

variable (calendar : Calendar) (route : CatalogRoute) (ledger : RouteLedger)
  (reservation notBeforeAt : ℚ) (leaseToken : Option String)

theorem reserveInput_quota :
    (reserveInput route ledger reservation notBeforeAt leaseToken).quota = ledger.quota := rfl

theorem reserveDailyTokens_quota :
    (reserveDailyTokens route ledger reservation notBeforeAt).quota = ledger.quota := rfl

theorem reserveBudget_quota :
    (reserveBudget route ledger reservation notBeforeAt).quota =
      if 0 < limitOf route.tpm then
        { ledger.quota with
          fullTokenBudget :=
            max 0 (availableTokenBudget (limitOf route.tpm) ledger notBeforeAt - reservation)
          tokenBudgetUpdatedAt := notBeforeAt }
      else ledger.quota := by
  unfold reserveBudget
  dsimp only
  split <;> rfl

theorem reserveWindow_quota :
    (reserveWindow route ledger reservation notBeforeAt).quota =
      if 0 < limitOf route.tpm ∧ reservation ≤ limitOf route.tpm then
        if tpmWindowSpanMs route ≤ notBeforeAt - ledger.tpmWindowStart then
          { ledger.quota with tpmWindowStart := notBeforeAt, tpmReserved := reservation }
        else { ledger.quota with tpmReserved := ledger.tpmReserved + reservation }
      else ledger.quota := by
  unfold reserveWindow
  dsimp only
  split
  · split <;> rfl
  · rfl

theorem countRequest_tokens :
    let counted := countDay calendar route (countMinute route ledger notBeforeAt) notBeforeAt
    counted.tpmWindowStart = ledger.tpmWindowStart ∧ counted.tpmReserved = ledger.tpmReserved ∧
      counted.fullTokenBudget = ledger.fullTokenBudget ∧
        counted.tokenBudgetUpdatedAt = ledger.tokenBudgetUpdatedAt := by
  unfold countDay countMinute
  dsimp only
  by_cases rolled : rpmWindowDurationMs route ≤ notBeforeAt - ledger.rpmWindowStart <;>
    by_cases same : ledger.rpdDayKey = calendar.routeDay route notBeforeAt <;>
      simp [rolled, same]

theorem applyProvisionalReservation_quota :
    (applyProvisionalReservation calendar route ledger reservation notBeforeAt leaseToken).quota =
      (reserveBudget route (reserveWindow route (countDay calendar route (countMinute route ledger
        notBeforeAt) notBeforeAt) reservation notBeforeAt) reservation notBeforeAt).quota := by
  show (reserveInput route (reserveDailyTokens route (reserveBudget route (reserveWindow route
    (countDay calendar route (countMinute route ledger notBeforeAt) notBeforeAt) reservation
      notBeforeAt) reservation notBeforeAt) reservation notBeforeAt) reservation notBeforeAt
        leaseToken).quota = _
  rw [reserveInput_quota, reserveDailyTokens_quota]

theorem reserveWindow_bucket :
    (reserveWindow route ledger reservation notBeforeAt).fullTokenBudget =
        ledger.fullTokenBudget ∧
      (reserveWindow route ledger reservation notBeforeAt).tokenBudgetUpdatedAt =
        ledger.tokenBudgetUpdatedAt := by
  unfold reserveWindow
  dsimp only
  split
  · split <;> exact ⟨rfl, rfl⟩
  · exact ⟨rfl, rfl⟩

theorem reserveBudget_window :
    (reserveBudget route ledger reservation notBeforeAt).tpmWindowStart =
        ledger.tpmWindowStart ∧
      (reserveBudget route ledger reservation notBeforeAt).tpmReserved = ledger.tpmReserved := by
  unfold reserveBudget
  dsimp only
  split <;> exact ⟨rfl, rfl⟩

/-- A claim takes its reservation from the refilled bucket. -/
theorem applyProvisionalReservation_bucket (limited : 0 < limitOf route.tpm) :
    (applyProvisionalReservation calendar route ledger reservation notBeforeAt
        leaseToken).fullTokenBudget =
        max 0 (availableTokenBudget (limitOf route.tpm) ledger notBeforeAt - reservation) ∧
      (applyProvisionalReservation calendar route ledger reservation notBeforeAt
        leaseToken).tokenBudgetUpdatedAt = notBeforeAt := by
  have columns := applyProvisionalReservation_quota calendar route ledger reservation notBeforeAt
    leaseToken
  rw [reserveBudget_quota, if_pos limited] at columns
  have counted := countRequest_tokens calendar route ledger notBeforeAt
  have windowed := reserveWindow_bucket route
    (countDay calendar route (countMinute route ledger notBeforeAt) notBeforeAt) reservation
    notBeforeAt
  refine ⟨(congrArg QuotaColumns.fullTokenBudget columns).trans ?_,
    congrArg QuotaColumns.tokenBudgetUpdatedAt columns⟩
  show max 0 (availableTokenBudget _ _ notBeforeAt - reservation) = _
  unfold availableTokenBudget
  rw [windowed.1, windowed.2, counted.2.2.1, counted.2.2.2]

/-- A claim that fits one token window is counted in the one it finds or opens. -/
theorem applyProvisionalReservation_tpm :
    (applyProvisionalReservation calendar route ledger reservation notBeforeAt
        leaseToken).tpmWindowStart =
        (if (0 < limitOf route.tpm ∧ reservation ≤ limitOf route.tpm) ∧
            tpmWindowSpanMs route ≤ notBeforeAt - ledger.tpmWindowStart then notBeforeAt
          else ledger.tpmWindowStart) ∧
      (applyProvisionalReservation calendar route ledger reservation notBeforeAt
        leaseToken).tpmReserved =
        if 0 < limitOf route.tpm ∧ reservation ≤ limitOf route.tpm then
          if tpmWindowSpanMs route ≤ notBeforeAt - ledger.tpmWindowStart then reservation
          else ledger.tpmReserved + reservation
        else ledger.tpmReserved := by
  have columns := applyProvisionalReservation_quota calendar route ledger reservation notBeforeAt
    leaseToken
  have counted := countRequest_tokens calendar route ledger notBeforeAt
  have budgeted := reserveBudget_window route (reserveWindow route
    (countDay calendar route (countMinute route ledger notBeforeAt) notBeforeAt) reservation
    notBeforeAt) reservation notBeforeAt
  have windowed := reserveWindow_quota route
    (countDay calendar route (countMinute route ledger notBeforeAt) notBeforeAt) reservation
    notBeforeAt
  have start := (congrArg QuotaColumns.tpmWindowStart columns).trans
    (budgeted.1.trans (congrArg QuotaColumns.tpmWindowStart windowed))
  have reserved := (congrArg QuotaColumns.tpmReserved columns).trans
    (budgeted.2.trans (congrArg QuotaColumns.tpmReserved windowed))
  have startColumn : ∀ row : RouteLedger, row.quota.tpmWindowStart = row.tpmWindowStart :=
    fun _ => rfl
  have reservedColumn : ∀ row : RouteLedger, row.quota.tpmReserved = row.tpmReserved :=
    fun _ => rfl
  rw [counted.1] at start reserved
  rw [counted.2.1] at reserved
  by_cases fits : 0 < limitOf route.tpm ∧ reservation ≤ limitOf route.tpm <;>
    by_cases rolled : tpmWindowSpanMs route ≤ notBeforeAt - ledger.tpmWindowStart <;>
      simp only [fits, rolled, and_self, and_true, and_false, if_true, if_false, startColumn,
        reservedColumn, counted.1, counted.2.1] at start reserved ⊢ <;>
      exact ⟨start, reserved⟩

end

/-! ## Lanes -/

/-- When a claim is made, and how far it may schedule. -/
structure ClaimWindow where
  now : ℚ
  windowSeconds : ℚ
  callDurationCeilingMs : ℚ

def ClaimWindow.dispatchWindowEnd (window : ClaimWindow) : ℚ :=
  window.now + window.windowSeconds * 1000

structure LaneJob where
  job : SizedJob
  options : PacingOptions
  leaseToken : String

/-- A leased job: its scheduled start, its charge, and the windows it was
counted in. -/
structure LaneLease where
  leaseToken : String
  notBeforeAt : ℚ
  reservation : ℚ
  reservationRpmWindowStart : ℚ
  reservationRpdDayKey : String
  reservationTpmWindowStart : ℚ

/-- The lease of a job, with the windows of the ledger its claim left. -/
def laneLease (leaseToken : String) (wait : LaneWait) (charged : RouteLedger) : LaneLease where
  leaseToken := leaseToken
  notBeforeAt := wait.notBeforeAt
  reservation := wait.reservation
  reservationRpmWindowStart := charged.rpmWindowStart
  reservationRpdDayKey := charged.rpdDayKey
  reservationTpmWindowStart := charged.tpmWindowStart

/-- Sequence one route's lane in selection order. A job whose start no longer
fits the dispatch window falls out. -/
def claimLane (calendar : Calendar) (route : CatalogRoute) (window : ClaimWindow) :
    List LaneJob → ℚ → RouteLedger → RouteLedger × List LaneLease
  | [], _, ledger => (ledger, [])
  | entry :: later, laneTime, ledger =>
      match computeRouteLaneWait calendar route ledger entry.job laneTime window.now
          entry.options with
      | .error _ => claimLane calendar route window later laneTime ledger
      | .ok wait =>
          if window.dispatchWindowEnd < wait.notBeforeAt + window.callDurationCeilingMs then
            claimLane calendar route window later laneTime ledger
          else
            let charged := applyProvisionalReservation calendar route ledger wait.reservation
              wait.notBeforeAt (some entry.leaseToken)
            let (after, leases) := claimLane calendar route window later
              (wait.notBeforeAt + wait.minInterRequestGapMs) charged
            (after, laneLease entry.leaseToken wait charged :: leases)

end CityPods.Dispatch
