import Mathlib.Tactic.Linarith
import CityPods.Dispatch.Calibration

/-! # Route capacity and pacing

When a job may start on a route: counters of the current minute and day, a
refilling token bucket, the shared provider bucket and the backoff state of the
route each push the start later, and a few limits refuse the job outright.
-/

namespace CityPods.Dispatch

/-! ## Windows -/

def msPerMinute : ℚ := 60000

def msPerDay : ℚ := 86400000

def marginMs (seconds : Option ℚ) : ℚ :=
  if limitOf seconds ≤ 0 then 0 else ⌈limitOf seconds * 1000⌉

def requestStartMarginMs (route : CatalogRoute) : ℚ := marginMs route.requestStartMarginSeconds

def tpmWindowMarginMs (route : CatalogRoute) : ℚ := marginMs route.tpmWindowMarginSeconds

def tpmWindowSpanMs (route : CatalogRoute) : ℚ := msPerMinute + tpmWindowMarginMs route

def rpmWindowDurationMs (route : CatalogRoute) : ℚ := msPerMinute + requestStartMarginMs route

/-- The minimum spacing between two requests on a route. -/
def minInterRequestGapMs (route : CatalogRoute) : ℚ :=
  if limitOf route.rpm ≤ 0 then 0
  else ⌈msPerMinute / limitOf route.rpm⌉ + requestStartMarginMs route

theorem marginMs_nonneg (seconds : Option ℚ) : 0 ≤ marginMs seconds := by
  unfold marginMs
  split
  · exact le_refl 0
  · next positive =>
      have product : 0 ≤ limitOf seconds * 1000 := by linarith
      exact_mod_cast Int.ceil_nonneg product

theorem rpmWindowDurationMs_pos (route : CatalogRoute) : 0 < rpmWindowDurationMs route := by
  have margin := marginMs_nonneg route.requestStartMarginSeconds
  have minute : (0 : ℚ) < msPerMinute := by decide
  unfold rpmWindowDurationMs requestStartMarginMs
  linarith

theorem tpmWindowSpanMs_pos (route : CatalogRoute) : 0 < tpmWindowSpanMs route := by
  have margin := marginMs_nonneg route.tpmWindowMarginSeconds
  have minute : (0 : ℚ) < msPerMinute := by decide
  unfold tpmWindowSpanMs tpmWindowMarginMs
  linarith

theorem minInterRequestGapMs_nonneg (route : CatalogRoute) : 0 ≤ minInterRequestGapMs route := by
  unfold minInterRequestGapMs
  split
  · exact le_refl 0
  · next positive =>
      have minute : (0 : ℚ) ≤ msPerMinute := by decide
      have quotient : 0 ≤ msPerMinute / limitOf route.rpm := div_nonneg minute (by linarith)
      have spacing : (0 : ℚ) ≤ ⌈msPerMinute / limitOf route.rpm⌉ := by
        exact_mod_cast Int.ceil_nonneg quotient
      have margin : 0 ≤ requestStartMarginMs route := marginMs_nonneg _
      linarith

/-! ## Calendar days -/

/-- The date of an instant in a time zone, as the platform computes it. -/
structure Calendar where
  zonedDateKey : (timeZone : String) → (ms : ℚ) → String

def routeResetTimezone (route : CatalogRoute) : String := route.resetTimezone.getD "UTC"

/-- The day of an instant on the provider's own clock. -/
def Calendar.routeDay (calendar : Calendar) (route : CatalogRoute) (ms : ℚ) : String :=
  calendar.zonedDateKey (routeResetTimezone route) ms

/-- Bisect a day boundary between `lo` and `hi` down to one minute. The hour it
starts from is halved six times. -/
def narrowMidnight (sameDay : ℚ → Bool) : Nat → ℚ → ℚ → ℚ
  | 0, _, hi => hi
  | steps + 1, lo, hi =>
      if hi - lo ≤ msPerMinute then hi
      else
        let mid := lo + ⌊(hi - lo) / 2⌋
        if sameDay mid then narrowMidnight sameDay steps mid hi
        else narrowMidnight sameDay steps lo mid

def msPerHour : ℚ := 3600000

/-- Probe forward one hour at a time for the next midnight. -/
def probeMidnight (sameDay : ℚ → Bool) (now : ℚ) : List ℚ → ℚ
  | [] => now + msPerDay
  | hour :: later =>
      if sameDay (now + hour * msPerHour) then probeMidnight sameDay now later
      else narrowMidnight sameDay 6 (now + hour * msPerHour - msPerHour) (now + hour * msPerHour)

def midnightProbes : List ℚ := (List.range 26).map fun hour => (hour : ℚ) + 1

def nextZonedMidnightMs (calendar : Calendar) (timeZone : String) (now : ℚ) : ℚ :=
  probeMidnight
    (fun ms => calendar.zonedDateKey timeZone ms = calendar.zonedDateKey timeZone now)
    now midnightProbes

/-- When the daily quota next allows a request, by the provider's calendar day. -/
def dailyQuotaReadyAt (calendar : Calendar) (route : CatalogRoute) (ledger : RouteLedger)
    (now : ℚ) : ℚ :=
  if limitOf route.rpd ≤ 0 then now
  else if ledger.rpdDayKey ≠ calendar.routeDay route now then now
  else if ledger.rpdCount < limitOf route.rpd then now
  else nextZonedMidnightMs calendar (routeResetTimezone route) now

/-! ## Counters and buckets -/

def fixedWindowReadyAt (windowStart count : ℚ) (limit : Option ℚ) (windowMs now : ℚ) : ℚ :=
  if limitOf limit ≤ 0 then now
  else if windowMs ≤ now - windowStart then now
  else if count < limitOf limit then now
  else windowStart + windowMs

/-- Used tokens in the continuously refilling daily bucket, reservations included. -/
def dailyTokenDebt (route : CatalogRoute) (ledger : RouteLedger) (now : ℚ) : ℚ :=
  let updatedAt := if ledger.tpdUpdatedAt = 0 then now else ledger.tpdUpdatedAt
  if 0 < limitOf route.tpd then
    max 0 (ledger.tpdUsed - max 0 (now - updatedAt) * limitOf route.tpd / msPerDay)
  else 0

/-- The well-formed entries of the rolling input window, oldest first. -/
def inputWindow (ledger : RouteLedger) : List InputEntry :=
  (ledger.inputWindow.filter fun entry => decide (0 < entry.tokens)).insertionSort
    fun left right => left.atMs ≤ right.atMs

/-- The tokens in the refilling bucket of a route with a positive `tpm`. -/
def availableTokenBudget (tpm : ℚ) (ledger : RouteLedger) (now : ℚ) : ℚ :=
  ledger.fullTokenBudget + max 0 (now - ledger.tokenBudgetUpdatedAt) * tpm / msPerMinute

/-- A route's 429 buffer, decayed since it was last raised. -/
def effectiveBufferSeconds (ledger : RouteLedger) (now : ℚ) : ℚ :=
  if ledger.bufferSeconds ≤ 0 ∨ ledger.bufferUpdatedAt ≤ 0 then 0
  else max 0 (ledger.bufferSeconds - max 0 ((now - ledger.bufferUpdatedAt) / 1000))

/-! ## Starting a job -/

/-- What a caller passes along with a job: calibration, the shared provider
ledger, and whether the size gates are relaxed. -/
structure PacingOptions where
  estimateFloor : ℚ := 0
  inputRatio : Option ℚ := none
  admitRatio : Option ℚ := none
  outputForecast : Option ℚ := none
  providerConfigTpm : Option ℚ := none
  providerLedger : Option ProviderLedger := none
  ceilingTolerance : Bool := false
  contextProbe : Bool := false

def PacingOptions.ratio (options : PacingOptions) (route : CatalogRoute) : ℚ :=
  options.inputRatio.getD (routeInputTokenRatio route)

def reservationFor (route : CatalogRoute) (job : SizedJob) (options : PacingOptions) : ℚ :=
  let input := scaledInputTokens job.inputTokenEstimate (options.ratio route)
  let output := if isGemini route then 0 else outputReserveFor job options.outputForecast
  max (input + output) options.estimateFloor

/-- The provider's shared limit, where it and its ledger are present. -/
def providerLimit (route : CatalogRoute) (options : PacingOptions) :
    Option (ℚ × ProviderLedger) :=
  let tpm := limitOf (options.providerConfigTpm.or route.providerTpm)
  if 0 < tpm then options.providerLedger.map fun ledger => (tpm, ledger) else none

/-- The first limit that a job can never meet on this route. -/
def permanentRefusal (route : CatalogRoute) (ledger : RouteLedger) (job : SizedJob) (now : ℚ)
    (options : PacingOptions) : Option Refusal :=
  let inputRatio := options.ratio route
  let reservation := reservationFor route job options
  let admitEstimate := scaledInputTokens job.inputTokenEstimate
    (minLimit inputRatio options.admitRatio)
  let size :=
    if options.contextProbe then none
    else inputSizeRefusal route ledger job.inputTokenEstimate (some inputRatio)
      options.admitRatio now options.ceilingTolerance
  if route.rpd = some 0 then some .routePaused
  else if size.isSome then size
  else if ¬ options.contextProbe ∧ 0 < ledger.promptCapEstimate ∧
      ledger.promptCapEstimate < job.inputTokenEstimate then some .overPromptCap
  else if 0 < limitOf route.tpd ∧ limitOf route.tpd < reservation then
    some .reservationOverDailyTokens
  else if isGemini route ∧ 0 < limitOf route.tpm ∧ limitOf route.tpm < admitEstimate then
    some .inputOverMinuteQuota
  else
    match providerLimit route options with
    | none => none
    | some (tpm, _) =>
        if tpm * fullTokenBudgetWindows < reservation then some .reservationOverProviderTokens
        else none

/-- Later entries leave the minute window until the job's input fits. -/
def inputMinutePush (tpm windowTokens span : ℚ) : List InputEntry → ℚ → ℚ → ℚ
  | [], _, start => start
  | entry :: later, used, start =>
      if used + windowTokens ≤ tpm then start
      else inputMinutePush tpm windowTokens span later (used - entry.tokens)
        (max start (entry.atMs + span))

/-- The trailing minute of input tokens, where the provider counts one. -/
def pushInputMinute (route : CatalogRoute) (ledger : RouteLedger) (inputEstimate start : ℚ) : ℚ :=
  let tpm := limitOf route.tpm
  if isGemini route ∧ 0 < tpm then
    let span := tpmWindowSpanMs route
    let recent := (inputWindow ledger).filter fun entry => decide (start - span < entry.atMs)
    inputMinutePush tpm (min inputEstimate tpm) span recent
      (recent.map InputEntry.tokens).sum start
  else start

def pushDailyTokens (route : CatalogRoute) (ledger : RouteLedger) (reservation now start : ℚ) :
    ℚ :=
  let tpd := limitOf route.tpd
  let deficit := dailyTokenDebt route ledger now + reservation - tpd
  if 0 < tpd ∧ 0 < deficit then max start (now + ⌈deficit * msPerDay / tpd⌉) else start

/-- A reservation within one window's allowance waits out a full window. -/
def pushTokenWindow (tpm span windowStart windowReserved reservation now start : ℚ) : ℚ :=
  let stale := decide (span ≤ now - windowStart)
  let reserved := if stale then 0 else windowReserved
  if reservation ≤ tpm ∧ tpm < reserved + reservation then
    max start ((if stale then now else windowStart) + span)
  else start

/-- A reservation waits until the bucket, which holds `available` now, covers it. -/
def pushTokenBucket (tpm available reservation now start : ℚ) : ℚ :=
  if available + max 0 (start - now) * (tpm / msPerMinute) < reservation then
    max start (now + max 0 ⌈(reservation - available) * msPerMinute / tpm⌉)
  else start

def pushRouteTokens (route : CatalogRoute) (ledger : RouteLedger) (reservation now start : ℚ) :
    ℚ :=
  let tpm := limitOf route.tpm
  if 0 < tpm then
    pushTokenBucket tpm (availableTokenBudget tpm ledger now) reservation now
      (pushTokenWindow tpm (tpmWindowSpanMs route) ledger.tpmWindowStart ledger.tpmReserved
        reservation now start)
  else start

def pushProviderTokens (route : CatalogRoute) (options : PacingOptions)
    (reservation now start : ℚ) : ℚ :=
  match providerLimit route options with
  | none => start
  | some (tpm, ledger) =>
      let refilled := ledger.fullTokenBudget +
        max 0 (now - ledger.tokenBudgetUpdatedAt) * tpm / msPerMinute
      pushTokenBucket tpm (min (tpm * fullTokenBudgetWindows) refilled) reservation now
        (pushTokenWindow tpm msPerMinute ledger.tpmWindowStart ledger.tpmReserved
          reservation now start)

def pushBuffer (ledger : RouteLedger) (now start : ℚ) : ℚ :=
  let bufferMs := effectiveBufferSeconds ledger now * 1000
  if 0 < bufferMs then max start (now + bufferMs) else start

def pushBlocked (ledger : RouteLedger) (start : ℚ) : ℚ :=
  match ledger.blockedUntil with
  | none => start
  | some blockedUntil => max start blockedUntil

structure SafeStart where
  notBeforeAt : ℚ
  reservation : ℚ
  deriving DecidableEq

/-- The earliest time a job could safely start on a route, not before
`earliestCandidateTime`. -/
def earliestSafeStart (calendar : Calendar) (route : CatalogRoute) (ledger : RouteLedger)
    (job : SizedJob) (earliestCandidateTime now : ℚ) (options : PacingOptions) :
    Except Refusal SafeStart :=
  match permanentRefusal route ledger job now options with
  | some refusal => .error refusal
  | none =>
      let reservation := reservationFor route job options
      let inputEstimate := scaledInputTokens job.inputTokenEstimate (options.ratio route)
      let start := max earliestCandidateTime now
      let start := pushDailyTokens route ledger reservation now start
      let start := pushInputMinute route ledger inputEstimate start
      let start := max start (fixedWindowReadyAt ledger.rpmWindowStart ledger.rpmCount route.rpm
        (rpmWindowDurationMs route) now)
      let start := max start (dailyQuotaReadyAt calendar route ledger now)
      let start := pushRouteTokens route ledger reservation now start
      let start := pushProviderTokens route options reservation now start
      .ok ⟨pushBlocked ledger (pushBuffer ledger now start), reservation⟩

def routeHasCapacityFor (calendar : Calendar) (route : CatalogRoute) (ledger : RouteLedger)
    (job : SizedJob) (now windowSeconds callDurationCeilingMs : ℚ) (options : PacingOptions) :
    Bool :=
  match earliestSafeStart calendar route ledger job now now options with
  | .error _ => false
  | .ok start => start.notBeforeAt + max 0 callDurationCeilingMs ≤ now + windowSeconds * 1000

structure LaneWait where
  waitMs : ℚ
  notBeforeAt : ℚ
  reservation : ℚ
  minInterRequestGapMs : ℚ

def computeRouteLaneWait (calendar : Calendar) (route : CatalogRoute) (ledger : RouteLedger)
    (job : SizedJob) (laneTime now : ℚ) (options : PacingOptions) : Except Refusal LaneWait :=
  (earliestSafeStart calendar route ledger job laneTime now options).map fun start =>
    { waitMs := max 0 (start.notBeforeAt - now)
      notBeforeAt := start.notBeforeAt
      reservation := start.reservation
      minInterRequestGapMs := minInterRequestGapMs route }

/-! ## Pushes only move a start later -/

theorem le_raise (condition : Prop) [Decidable condition] (start later : ℚ) :
    start ≤ if condition then max start later else start := by
  split
  · exact le_max_left _ _
  · exact le_refl start

theorem le_inputMinutePush (tpm windowTokens span : ℚ) (entries : List InputEntry)
    (used start : ℚ) : start ≤ inputMinutePush tpm windowTokens span entries used start := by
  induction entries generalizing used start with
  | nil => exact le_refl start
  | cons entry later induction =>
      unfold inputMinutePush
      split
      · exact le_refl start
      · exact (le_max_left _ _).trans (induction _ _)

theorem le_pushInputMinute (route : CatalogRoute) (ledger : RouteLedger)
    (inputEstimate start : ℚ) : start ≤ pushInputMinute route ledger inputEstimate start := by
  unfold pushInputMinute
  dsimp only
  split
  · exact le_inputMinutePush _ _ _ _ _ _
  · exact le_refl start

theorem le_pushDailyTokens (route : CatalogRoute) (ledger : RouteLedger)
    (reservation now start : ℚ) : start ≤ pushDailyTokens route ledger reservation now start := by
  unfold pushDailyTokens
  exact le_raise _ _ _

theorem le_pushTokenWindow (tpm span windowStart windowReserved reservation now start : ℚ) :
    start ≤ pushTokenWindow tpm span windowStart windowReserved reservation now start := by
  unfold pushTokenWindow
  exact le_raise _ _ _

theorem le_pushTokenBucket (tpm available reservation now start : ℚ) :
    start ≤ pushTokenBucket tpm available reservation now start := by
  unfold pushTokenBucket
  exact le_raise _ _ _

theorem le_pushRouteTokens (route : CatalogRoute) (ledger : RouteLedger)
    (reservation now start : ℚ) : start ≤ pushRouteTokens route ledger reservation now start := by
  unfold pushRouteTokens
  dsimp only
  split
  · exact (le_pushTokenWindow _ _ _ _ _ _ _).trans (le_pushTokenBucket _ _ _ _ _)
  · exact le_refl start

theorem le_pushProviderTokens (route : CatalogRoute) (options : PacingOptions)
    (reservation now start : ℚ) :
    start ≤ pushProviderTokens route options reservation now start := by
  unfold pushProviderTokens
  split
  · exact le_refl start
  · exact (le_pushTokenWindow _ _ _ _ _ _ _).trans (le_pushTokenBucket _ _ _ _ _)

theorem le_pushBuffer (ledger : RouteLedger) (now start : ℚ) :
    start ≤ pushBuffer ledger now start := by
  unfold pushBuffer
  exact le_raise _ _ _

theorem le_pushBlocked (ledger : RouteLedger) (start : ℚ) : start ≤ pushBlocked ledger start := by
  unfold pushBlocked
  split
  · exact le_refl start
  · exact le_max_left _ _

variable {calendar : Calendar} {route : CatalogRoute} {ledger : RouteLedger} {job : SizedJob}
variable {now : ℚ} {options : PacingOptions}

theorem le_earliestSafeStart {earliestCandidateTime : ℚ} {start : SafeStart}
    (safe : earliestSafeStart calendar route ledger job earliestCandidateTime now options =
      .ok start) :
    earliestCandidateTime ≤ start.notBeforeAt ∧ now ≤ start.notBeforeAt ∧
      dailyQuotaReadyAt calendar route ledger now ≤ start.notBeforeAt := by
  unfold earliestSafeStart at safe
  split at safe
  · cases safe
  · cases safe
    have tail (early : ℚ) :
        early ≤ pushBlocked ledger (pushBuffer ledger now (pushProviderTokens route options
          (reservationFor route job options) now
            (pushRouteTokens route ledger (reservationFor route job options) now early))) :=
      (le_pushRouteTokens route ledger _ now early).trans
        ((le_pushProviderTokens route options _ now _).trans
          ((le_pushBuffer ledger now _).trans (le_pushBlocked ledger _)))
    have head := (le_pushDailyTokens route ledger (reservationFor route job options) now
      (max earliestCandidateTime now)).trans (le_pushInputMinute route ledger
        (scaledInputTokens job.inputTokenEstimate (options.ratio route)) _)
    have counted := head.trans ((le_max_left _ (fixedWindowReadyAt ledger.rpmWindowStart
      ledger.rpmCount route.rpm (rpmWindowDurationMs route) now)).trans
        ((le_max_left _ (dailyQuotaReadyAt calendar route ledger now)).trans (tail _)))
    refine ⟨(le_max_left _ _).trans counted, (le_max_right _ _).trans counted, ?_⟩
    exact (le_max_right _ _).trans (tail _)

theorem le_computeRouteLaneWait {laneTime : ℚ} {wait : LaneWait}
    (waited : computeRouteLaneWait calendar route ledger job laneTime now options = .ok wait) :
    laneTime ≤ wait.notBeforeAt ∧ now ≤ wait.notBeforeAt ∧
      dailyQuotaReadyAt calendar route ledger now ≤ wait.notBeforeAt := by
  unfold computeRouteLaneWait at waited
  cases safe : earliestSafeStart calendar route ledger job laneTime now options with
  | error refusal =>
      rw [safe] at waited
      cases waited
  | ok start =>
      rw [safe] at waited
      cases waited
      exact le_earliestSafeStart safe

end CityPods.Dispatch
