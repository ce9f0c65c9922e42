import CityPods.Dispatch.DailyQuota
import CityPods.Dispatch.Schedules

/-! # The token bucket over runs of claims

A route's bucket is read at the time of the claim and charged at the scheduled
start. Where the read does not fall before the last charge, what starts is paid
for by the balance and the refill since.
-/

namespace CityPods.Dispatch

/-! ## Reading the bucket -/

def bucketCandidate (calendar : Calendar) (route : CatalogRoute) (ledger : RouteLedger)
    (job : SizedJob) (laneTime now : ℚ) (options : PacingOptions) : ℚ :=
  let reservation := reservationFor route job options
  let inputEstimate := scaledInputTokens job.inputTokenEstimate (options.ratio route)
  let start := pushDailyTokens route ledger reservation now (max laneTime now)
  let start := pushInputMinute route ledger inputEstimate start
  let start := max start (fixedWindowReadyAt ledger.rpmWindowStart ledger.rpmCount route.rpm
    (rpmWindowDurationMs route) now)
  let start := max start (dailyQuotaReadyAt calendar route ledger now)
  pushTokenWindow (limitOf route.tpm) (tpmWindowSpanMs route) ledger.tpmWindowStart
    ledger.tpmReserved reservation now start

section

variable {calendar : Calendar} {route : CatalogRoute} {ledger : RouteLedger} {job : SizedJob}
  {laneTime now : ℚ} {options : PacingOptions}

theorem now_le_bucketCandidate :
    now ≤ bucketCandidate calendar route ledger job laneTime now options := by
  unfold bucketCandidate
  calc now ≤ max laneTime now := le_max_right _ _
    _ ≤ _ := le_pushDailyTokens route ledger _ now _
    _ ≤ _ := le_pushInputMinute route ledger _ _
    _ ≤ _ := le_max_left _ _
    _ ≤ _ := le_max_left _ _
    _ ≤ _ := le_pushTokenWindow _ _ _ _ _ _ _

theorem le_bucketStart (limited : 0 < limitOf route.tpm) {wait : LaneWait}
    (waited : computeRouteLaneWait calendar route ledger job laneTime now options = .ok wait) :
    wait.reservation = reservationFor route job options ∧
      pushTokenBucket (limitOf route.tpm)
          (availableTokenBudget (limitOf route.tpm) ledger now)
          (reservationFor route job options) now
          (bucketCandidate calendar route ledger job laneTime now options) ≤
        wait.notBeforeAt := by
  unfold computeRouteLaneWait earliestSafeStart at waited
  cases refused : permanentRefusal route ledger job now options with
  | some refusal =>
      rw [refused] at waited
      cases waited
  | none =>
      rw [refused] at waited
      cases waited
      refine ⟨rfl, ?_⟩
      dsimp only
      unfold pushRouteTokens
      rw [if_pos limited]
      exact (le_pushProviderTokens route options _ now _).trans
        ((le_pushBuffer ledger now _).trans (le_pushBlocked ledger _))

variable {tpm : ℚ}

theorem availableTokenBudget_mono {early late : ℚ} (limited : 0 < tpm) (ledger : RouteLedger)
    (later : early ≤ late) :
    availableTokenBudget tpm ledger early ≤ availableTokenBudget tpm ledger late := by
  unfold availableTokenBudget
  have minute : (0 : ℚ) < msPerMinute := by decide
  gcongr

/-- What the bucket holds once its timestamp has passed. -/
theorem availableTokenBudget_of_le {time : ℚ} (passed : ledger.tokenBudgetUpdatedAt ≤ time) :
    availableTokenBudget tpm ledger time =
      ledger.fullTokenBudget + (time - ledger.tokenBudgetUpdatedAt) * tpm / msPerMinute := by
  unfold availableTokenBudget
  rw [max_eq_right (sub_nonneg.mpr passed)]

/-- A read that does not fall before the timestamp pushes the start until the bucket
covers the reservation. -/
theorem le_available_pushTokenBucket {reservation candidate : ℚ} (limited : 0 < tpm)
    (passed : ledger.tokenBudgetUpdatedAt ≤ now) (ahead : now ≤ candidate) :
    reservation ≤ availableTokenBudget tpm ledger
      (pushTokenBucket tpm (availableTokenBudget tpm ledger now) reservation now candidate) := by
  have minute : (0 : ℚ) < msPerMinute := by decide
  have refill (start : ℚ) (later : now ≤ start) :
      availableTokenBudget tpm ledger start =
        availableTokenBudget tpm ledger now + (start - now) * (tpm / msPerMinute) := by
    rw [availableTokenBudget_of_le (passed.trans later), availableTokenBudget_of_le passed]
    ring
  unfold pushTokenBucket
  split
  · next short =>
      set deficit := reservation - availableTokenBudget tpm ledger now with deficit_eq
      have covered : deficit * msPerMinute / tpm ≤
          max candidate (now + ↑(max 0 ⌈deficit * msPerMinute / tpm⌉)) - now := by
        have ceiled : deficit * msPerMinute / tpm ≤ ↑⌈deficit * msPerMinute / tpm⌉ := Int.le_ceil _
        have raised : (⌈deficit * msPerMinute / tpm⌉ : ℚ) ≤
            ↑(max 0 ⌈deficit * msPerMinute / tpm⌉) := by
          exact_mod_cast le_max_right 0 ⌈deficit * msPerMinute / tpm⌉
        have pushed := le_max_right candidate
          (now + ((max 0 ⌈deficit * msPerMinute / tpm⌉ : ℤ) : ℚ))
        linarith
      rw [refill _ (ahead.trans (le_max_left _ _))]
      have repaid : deficit = deficit * msPerMinute / tpm * (tpm / msPerMinute) := by
        field_simp
      have scaled := mul_le_mul_of_nonneg_right covered (div_pos limited minute).le
      linarith
  · next held =>
      rw [refill candidate ahead]
      rw [max_eq_right (sub_nonneg.mpr ahead)] at held
      exact not_lt.mp held

end

/-! ## Runs that read the bucket after its last charge -/

/-- The bucket is not read before its timestamp, or the start that the other limits
leave is past the timestamp and the bucket covers the job there. -/
def Metered (calendar : Calendar) (route : CatalogRoute) (schedule : Schedule)
    (window : ClaimWindow) (entry : LaneJob) : Prop :=
  let candidate := bucketCandidate calendar route schedule.ledger entry.job schedule.laneTime
    window.now entry.options
  schedule.ledger.tokenBudgetUpdatedAt ≤ window.now ∨
    schedule.ledger.tokenBudgetUpdatedAt ≤ candidate ∧
      reservationFor route entry.job entry.options ≤
        availableTokenBudget (limitOf route.tpm) schedule.ledger candidate

/-- Nothing but claims touches the bucket. -/
def KeepsBucket (before after : RouteLedger) : Prop :=
  after.fullTokenBudget = before.fullTokenBudget ∧
    after.tokenBudgetUpdatedAt = before.tokenBudgetUpdatedAt

def bucketRegime (calendar : Calendar) (route : CatalogRoute) : Regime where
  admits := Metered calendar route
  changes := KeepsBucket

def Schedule.reservedBy (schedule : Schedule) (time : ℚ) : ℚ :=
  ((schedule.admitted.filter fun admission => decide (admission.notBeforeAt ≤ time)).map
    Admission.reservation).sum

/-- The bucket has paid for all starts: none is later than its timestamp, and at
every time no more has started than the first balance and the refill since. -/
structure Paid (tpm balance opened : ℚ) (schedule : Schedule) : Prop where
  solvent : 0 ≤ schedule.ledger.fullTokenBudget
  opened_le : opened ≤ schedule.ledger.tokenBudgetUpdatedAt
  started : ∀ admission ∈ schedule.admitted,
    admission.notBeforeAt ≤ schedule.ledger.tokenBudgetUpdatedAt
  spent : schedule.ledger.fullTokenBudget + (schedule.admitted.map Admission.reservation).sum ≤
    balance + tpm * (schedule.ledger.tokenBudgetUpdatedAt - opened) / msPerMinute
  covered : ∀ time, opened ≤ time →
    schedule.reservedBy time ≤ balance + tpm * (time - opened) / msPerMinute

section

variable {calendar : Calendar} {route : CatalogRoute}
  {schedule : Schedule} {entry : LaneJob} {wait : LaneWait}

/-- A metered job starts at or after the timestamp, with the bucket covering it. -/
theorem Metered.covers (limited : 0 < limitOf route.tpm) {window : ClaimWindow}
    (metered : Metered calendar route schedule window entry)
    (waited : schedule.waitOf calendar route window entry = some wait) :
    schedule.ledger.tokenBudgetUpdatedAt ≤ wait.notBeforeAt ∧
      wait.reservation ≤
        availableTokenBudget (limitOf route.tpm) schedule.ledger wait.notBeforeAt := by
  obtain ⟨reserved, pushed⟩ := le_bucketStart limited (Schedule.waitOf_eq_some waited)
  rw [reserved]
  have ahead := (le_pushTokenBucket _ _ _ _ _).trans pushed
  rcases metered with passed | ⟨passed, held⟩
  · exact ⟨passed.trans (now_le_bucketCandidate.trans ahead),
      (le_available_pushTokenBucket limited passed now_le_bucketCandidate).trans
        (availableTokenBudget_mono limited _ pushed)⟩
  · exact ⟨passed.trans ahead, held.trans (availableTokenBudget_mono limited _ ahead)⟩

/-- Charging a job that the bucket covers at its start keeps the bucket paid. -/
theorem Paid.charge (limited : 0 < limitOf route.tpm) {balance opened : ℚ}
    (paid : Paid (limitOf route.tpm) balance opened schedule)
    (passed : schedule.ledger.tokenBudgetUpdatedAt ≤ wait.notBeforeAt) (held : wait.reservation ≤
      availableTokenBudget (limitOf route.tpm) schedule.ledger wait.notBeforeAt) :
    Paid (limitOf route.tpm) balance opened (schedule.charge calendar route entry wait) := by
  have minute : (0 : ℚ) < msPerMinute := by decide
  obtain ⟨budget, updated⟩ := applyProvisionalReservation_bucket calendar route schedule.ledger
    wait.reservation wait.notBeforeAt (some entry.leaseToken) limited
  rw [max_eq_right (sub_nonneg.mpr held), availableTokenBudget_of_le passed] at budget
  rw [availableTokenBudget_of_le passed] at held
  have total : ((schedule.charge calendar route entry wait).admitted.map
      Admission.reservation).sum =
        (schedule.admitted.map Admission.reservation).sum + wait.reservation := by
    simp [Schedule.charge]
  have spent : (schedule.charge calendar route entry wait).ledger.fullTokenBudget +
      ((schedule.charge calendar route entry wait).admitted.map Admission.reservation).sum ≤
        balance + limitOf route.tpm * (wait.notBeforeAt - opened) / msPerMinute := by
    rw [total]
    show (applyProvisionalReservation calendar route schedule.ledger wait.reservation
      wait.notBeforeAt (some entry.leaseToken)).fullTokenBudget + _ ≤ _
    rw [budget]
    have split : limitOf route.tpm * (wait.notBeforeAt - opened) / msPerMinute =
        limitOf route.tpm * (schedule.ledger.tokenBudgetUpdatedAt - opened) / msPerMinute +
          (wait.notBeforeAt - schedule.ledger.tokenBudgetUpdatedAt) * limitOf route.tpm /
            msPerMinute := by
      ring
    have before := paid.spent
    linarith
  have solvent : 0 ≤ (schedule.charge calendar route entry wait).ledger.fullTokenBudget := by
    show 0 ≤ (applyProvisionalReservation calendar route schedule.ledger wait.reservation
      wait.notBeforeAt (some entry.leaseToken)).fullTokenBudget
    rw [budget]
    linarith
  have started : ∀ admission ∈ (schedule.charge calendar route entry wait).admitted,
      admission.notBeforeAt ≤ wait.notBeforeAt := by
    intro admission member
    rcases List.mem_append.mp member with earlier | own
    · exact (paid.started admission earlier).trans passed
    · rw [List.mem_singleton.mp own]
  refine ⟨solvent, ?_, ?_, ?_, ?_⟩
  · exact (paid.opened_le.trans passed).trans updated.ge
  · exact fun admission member => (started admission member).trans updated.ge
  · exact spent.trans_eq (by
      show _ = balance + limitOf route.tpm * ((applyProvisionalReservation calendar route
        schedule.ledger wait.reservation wait.notBeforeAt
          (some entry.leaseToken)).tokenBudgetUpdatedAt - opened) / msPerMinute
      rw [updated])
  · intro time later
    by_cases reached : wait.notBeforeAt ≤ time
    · -- every start so far is at or before `time`
      have all : (schedule.charge calendar route entry wait).reservedBy time =
          ((schedule.charge calendar route entry wait).admitted.map Admission.reservation).sum := by
        unfold Schedule.reservedBy
        rw [List.filter_eq_self.mpr fun admission member =>
          decide_eq_true ((started admission member).trans reached)]
      rw [all]
      have refill : limitOf route.tpm * (wait.notBeforeAt - opened) / msPerMinute ≤
          limitOf route.tpm * (time - opened) / msPerMinute := by
        gcongr
      linarith
    · have same : (schedule.charge calendar route entry wait).reservedBy time =
          schedule.reservedBy time := by
        unfold Schedule.reservedBy Schedule.charge
        rw [List.filter_append]
        simp [reached]
      rw [same]
      exact paid.covered time later

/-- In every run whose claims read the bucket after its last charge, no more starts by any
time than the first balance and the refill since. -/
theorem token_bucket_conserved (limited : 0 < limitOf route.tpm) {start : RouteLedger}
    {opened : ℚ} (updated : start.tokenBudgetUpdatedAt = opened)
    (solvent : 0 ≤ start.fullTokenBudget) {schedule : Schedule} {clock : ℚ}
    (run : ScheduleRun calendar route (bucketRegime calendar route) start opened schedule clock)
    (time : ℚ) (after : opened ≤ time) :
    schedule.reservedBy time ≤
      start.fullTokenBudget + limitOf route.tpm * (time - opened) / msPerMinute := by
  have minute : (0 : ℚ) < msPerMinute := by decide
  have paid : Paid (limitOf route.tpm) start.fullTokenBudget opened schedule := by
    refine @ScheduleRun.invariant calendar route (bucketRegime calendar route)
      (fun schedule _ => Paid (limitOf route.tpm) start.fullTokenBudget opened schedule) start
      opened ?_ ?_ ?_ ?_ schedule clock run
    · refine ⟨solvent, updated.ge, by simp, by simp [updated], fun time later => ?_⟩
      have refill : 0 ≤ limitOf route.tpm * (time - opened) / msPerMinute :=
        div_nonneg (mul_nonneg limited.le (sub_nonneg.mpr later)) minute.le
      simp only [Schedule.reservedBy, List.filter_nil, List.map_nil, List.sum_nil]
      linarith
    · rintro schedule clock window ⟨solvent, opened_le, started, spent, covered⟩ later opens
      exact ⟨solvent, opened_le, started, spent, covered⟩
    · intro schedule window entry wait paid waited metered
      obtain ⟨passed, held⟩ := metered.covers limited waited
      exact paid.charge limited passed held
    · rintro schedule clock ledger ⟨solvent, opened_le, started, spent, covered⟩ ⟨budget, stamp⟩
      exact ⟨budget ▸ solvent, stamp ▸ opened_le, stamp ▸ started, by
        show ledger.fullTokenBudget + _ ≤ _ + _ * (ledger.tokenBudgetUpdatedAt - _) / _
        rw [budget, stamp]
        exact spent, covered⟩
  exact paid.covered time after

end

/-! ## Three jobs on an empty minute -/

def refilledRoute : CatalogRoute where
  provider := "groq"
  rpm := some 60
  tpm := some 60000

def fiveThousandLeft : RouteLedger where
  fullTokenBudget := 5000
  tokenBudgetUpdatedAt := noonWindow.now

def inputJob (leaseToken : String) (tokens : ℚ) : LaneJob where
  job := ⟨tokens, 0⟩
  options := {}
  leaseToken := leaseToken

/-- The second job waits for the refill that its claim reads at noon. -/
theorem token_bucket_conserved_noon :
    (Schedule.claim utcCalendar refilledRoute noonWindow [inputJob "a" 5000, inputJob "b" 4000]
        ⟨fiveThousandLeft, noonWindow.now, []⟩).reservedBy (noonWindow.now + 4000) ≤
      5000 + 60000 * (noonWindow.now + 4000 - noonWindow.now) / msPerMinute :=
  @token_bucket_conserved utcCalendar refilledRoute (by decide) fiveThousandLeft _ rfl
    (by decide) _ _
    (.claim .start noonWindow [inputJob "a" 5000, inputJob "b" 4000] (by decide) (le_refl _)
      trivial ⟨fun _ => .inl (by decide +kernel), fun _ => .inl (by decide +kernel), trivial⟩)
    (noonWindow.now + 4000) (by decide +kernel)

/-- The third job starts on a refill that the second has already used: five seconds
after noon 14000 tokens have started on a bucket of 5000 that refills 5000. -/
theorem bucket_overdrawn :
    0 < limitOf refilledRoute.tpm ∧ fiveThousandLeft.tokenBudgetUpdatedAt = noonWindow.now ∧
      ∃ schedule clock,
        ScheduleRun utcCalendar refilledRoute {} fiveThousandLeft noonWindow.now schedule clock ∧
          ¬ schedule.reservedBy (noonWindow.now + 5000) ≤ fiveThousandLeft.fullTokenBudget +
            limitOf refilledRoute.tpm * (noonWindow.now + 5000 - noonWindow.now) / msPerMinute := by
  refine ⟨by decide, rfl, _, _, .claim .start noonWindow
    [inputJob "a" 5000, inputJob "b" 4000, inputJob "c" 5000] (by decide) (le_refl _) trivial
      ⟨fun _ => trivial, fun _ => trivial, fun _ => trivial, trivial⟩, ?_⟩
  decide +kernel

end CityPods.Dispatch
