import CityPods.Dispatch.DailyQuota
import CityPods.Dispatch.Settlement

/-! # Window counters

The counters of a route count in windows that roll over while calls are under
way. Beside the ledger a run keeps every lease with what it has counted and
not taken back, and compares the two.
-/

namespace CityPods.Dispatch

open Foundation

/-! ## Leases and what they count -/

/-- A lease: the job row its claim wrote, whether its request still counts, and
the tokens it counts in its window. -/
structure CountedLease where
  job : JobRow
  requestCounted : Bool := true
  tokensCounted : ℚ
  settled : Bool := false

def fitsWindow (route : CatalogRoute) (job : JobRow) : Bool :=
  0 < limitOf route.tpm ∧ job.tokenReservation ≤ limitOf route.tpm

def claimedLease (route : CatalogRoute) (job : JobRow) : CountedLease where
  job := job
  tokensCounted := if fitsWindow route job then job.tokenReservation else 0

/-- A refund takes back all that a lease counts; a measured success counts what it used. -/
def settledLease (route : CatalogRoute) (lease : CountedLease) (result : CallResult) :
    CountedLease :=
  if refunded lease.job result then
    { lease with requestCounted := false, tokensCounted := 0, settled := true }
  else if result.outcome = .success ∧ fitsWindow route lease.job then
    { lease with
      tokensCounted := (result.countedTokens route).getD lease.tokensCounted, settled := true }
  else { lease with settled := true }

abbrev Leases := Dict String CountedLease

def settleLease (route : CatalogRoute) (leases : Leases) (result : CallResult) : Leases :=
  match leases.get? result.leaseToken with
  | some lease => leases.set result.leaseToken (settledLease route lease result)
  | none => leases

def CountedLease.requests (lease : CountedLease) : ℚ := if lease.requestCounted then 1 else 0

def requestsInMinute (start : ℚ) (leases : Leases) : ℚ :=
  leases.totalAt (fun lease => lease.job.reservationRpmWindowStart) CountedLease.requests start

def requestsOnDay (day : String) (leases : Leases) : ℚ :=
  leases.totalAt (fun lease => lease.job.reservationRpdDayKey) CountedLease.requests day

def tokensInWindow (start : ℚ) (leases : Leases) : ℚ :=
  leases.totalAt (fun lease => lease.job.reservationTpmWindowStart) CountedLease.tokensCounted start

structure CountersCover (row : RouteLedger) (leases : Leases) : Prop where
  minute : requestsInMinute row.rpmWindowStart leases ≤ row.rpmCount
  day : requestsOnDay row.rpdDayKey leases ≤ row.rpdCount
  tokens : tokensInWindow row.tpmWindowStart leases ≤ row.tpmReserved

/-! ## Runs -/

def RouteReport.result : RouteReport → Option CallResult
  | .own _ _ result _ => some result
  | .sibling _ => none

def RouteReport.Accepted (leases : Leases) : RouteReport → Prop
  | .own _ job result _ => ∃ lease, leases.get? result.leaseToken = some lease ∧
      lease.settled = false ∧ lease.job = job
  | .sibling _ => True

def settleLeases (route : CatalogRoute) (leases : Leases) (reports : List RouteReport) : Leases :=
  (reports.filterMap RouteReport.result).foldl (settleLease route) leases

structure ClaimWrites (job : JobRow) (leaseToken : String) (reservation : ℚ)
    (charged : RouteLedger) : Prop where
  leaseToken : job.leaseToken = some leaseToken
  tokenReservation : job.tokenReservation = reservation
  rpmWindowStart : job.reservationRpmWindowStart = charged.rpmWindowStart
  rpdDayKey : job.reservationRpdDayKey = charged.rpdDayKey
  tpmWindowStart : job.reservationTpmWindowStart = charged.tpmWindowStart

inductive WindowRun (calendar : Calendar) (config : Config) (route : CatalogRoute)
    (mayClaim : RouteLedger → Leases → ℚ → Prop)
    (maySettle : RouteLedger → JobRow → CallResult → Prop) :
    RouteLedger → Leases → (clock : ℚ) → Prop
  | start {row : RouteLedger} {clock : ℚ} (minute : 0 ≤ row.rpmCount) (day : 0 ≤ row.rpdCount)
      (tokens : 0 ≤ row.tpmReserved) : WindowRun calendar config route mayClaim maySettle row [] clock
  | claim {row : RouteLedger} {leases : Leases} {clock : ℚ} (job : JobRow) (leaseToken : String)
      (reservation now notBeforeAt : ℚ)
      (run : WindowRun calendar config route mayClaim maySettle row leases clock)
      (later : clock ≤ now) (scheduled : now ≤ notBeforeAt)
      (fresh : leases.get? leaseToken = none)
      (written : ClaimWrites job leaseToken reservation (applyProvisionalReservation calendar route
        row reservation notBeforeAt (some leaseToken)))
      (claimable : mayClaim row leases notBeforeAt) :
      WindowRun calendar config route mayClaim maySettle
        (applyProvisionalReservation calendar route row reservation notBeforeAt (some leaseToken))
        (leases.set leaseToken (claimedLease route job)) now
  | complete {row : RouteLedger} {leases : Leases} {clock : ℚ} (reports : List RouteReport)
      (now : ℚ) (run : WindowRun calendar config route mayClaim maySettle row leases clock)
      (accepted : ∀ report ∈ reports, report.Accepted leases)
      (distinct : ((reports.filterMap RouteReport.result).map CallResult.leaseToken).Nodup)
      (settleable : ∀ rejectedInput job result draws,
        RouteReport.own rejectedInput job result draws ∈ reports → maySettle row job result) :
      WindowRun calendar config route mayClaim maySettle
        (settleReports config route now reports none row) (settleLeases route leases reports) clock

def KeepsDay (calendar : Calendar) (route : CatalogRoute) (row : RouteLedger) (leases : Leases)
    (notBeforeAt : ℚ) : Prop :=
  calendar.routeDay route notBeforeAt = row.rpdDayKey ∨ ∀ entry ∈ leases,
    entry.2.job.reservationRpdDayKey = calendar.routeDay route notBeforeAt →
      entry.2.requestCounted = false

/-- A settlement takes back from the windows its claim counted in. -/
structure RefundsOwnWindow (route : CatalogRoute) (row : RouteLedger) (job : JobRow)
    (result : CallResult) : Prop where
  reserved : 0 < limitOf route.tpm → settledReservation job result = job.tokenReservation
  requests : refunded job result → ¬ 0 < limitOf route.tpm →
    row.rpmWindowStart = job.reservationRpmWindowStart ∧
      row.rpdDayKey = job.reservationRpdDayKey
  tokens : refunded job result → 0 < limitOf route.tpm →
    row.tpmWindowStart = job.reservationTpmWindowStart →
      job.tokenReservation ≤ limitOf route.tpm

/-! ## What one step counts -/

section

variable {calendar : Calendar} {config : Config} {route : CatalogRoute}

structure LeasesOpened (route : CatalogRoute) (row : RouteLedger) (leases : Leases) : Prop where
  minute : ∀ entry ∈ leases, entry.2.job.reservationRpmWindowStart ≤ row.rpmWindowStart
  tokens : ∀ entry ∈ leases, entry.2.job.reservationTpmWindowStart ≤ row.tpmWindowStart
  unsettled : ∀ entry ∈ leases, entry.2.settled = false →
    entry.2 = claimedLease route entry.2.job

variable {leases : Leases} {row : RouteLedger} {job : JobRow}
  {leaseToken : String} {reservation notBeforeAt : ℚ}

theorem LeasesOpened.claim (opened : LeasesOpened route row leases)
    (written : ClaimWrites job leaseToken reservation (applyProvisionalReservation calendar route
      row reservation notBeforeAt (some leaseToken))) :
    LeasesOpened route
      (applyProvisionalReservation calendar route row reservation notBeforeAt (some leaseToken))
      (leases.set leaseToken (claimedLease route job)) := by
  have minutePositive := rpmWindowDurationMs_pos route
  have tokensPositive := tpmWindowSpanMs_pos route
  have minuteLater : row.rpmWindowStart ≤ (applyProvisionalReservation calendar route row
      reservation notBeforeAt (some leaseToken)).rpmWindowStart := by
    rw [(applyProvisionalReservation_rpm calendar route row reservation notBeforeAt _).1]
    split <;> linarith
  have tokensLater : row.tpmWindowStart ≤ (applyProvisionalReservation calendar route row
      reservation notBeforeAt (some leaseToken)).tpmWindowStart := by
    rw [(applyProvisionalReservation_tpm calendar route row reservation notBeforeAt _).1]
    split
    · next rolled => linarith [rolled.2]
    · exact le_refl _
  constructor
  · intro entry member
    rcases Dict.mem_set member with same | old
    · rw [same]
      exact written.rpmWindowStart.le
    · exact (opened.minute entry old).trans minuteLater
  · intro entry member
    rcases Dict.mem_set member with same | old
    · rw [same]
      exact written.tpmWindowStart.le
    · exact (opened.tokens entry old).trans tokensLater
  · intro entry member unsettled
    rcases Dict.mem_set member with same | old
    · rw [same]
      rfl
    · exact opened.unsettled entry old unsettled

theorem totalAt_claim [DecidableEq ω] (window : CountedLease → ω) (amount : CountedLease → ℚ)
    (fresh : leases.get? leaseToken = none) (lease : CountedLease) :
    (leases.set leaseToken lease).totalAt window amount (window lease) =
      leases.totalAt window amount (window lease) + amount lease := by
  rw [Dict.totalAt_set_new window amount _ fresh, if_pos rfl]

theorem CountersCover.claim
    (covers : CountersCover row leases) (opened : LeasesOpened route row leases)
    (written : ClaimWrites job leaseToken reservation (applyProvisionalReservation calendar route
      row reservation notBeforeAt (some leaseToken)))
    (fresh : leases.get? leaseToken = none)
    (keeps : KeepsDay calendar route row leases notBeforeAt) :
    CountersCover
      (applyProvisionalReservation calendar route row reservation notBeforeAt (some leaseToken))
      (leases.set leaseToken (claimedLease route job)) := by
  have minutePositive := rpmWindowDurationMs_pos route
  have tokensPositive := tpmWindowSpanMs_pos route
  constructor
  · have counter := applyProvisionalReservation_rpm calendar route row reservation notBeforeAt
      (some leaseToken)
    rw [← written.rpmWindowStart, counter.2]
    refine (totalAt_claim (fun lease => lease.job.reservationRpmWindowStart)
      CountedLease.requests fresh (claimedLease route job)).le.trans ?_
    have one : (claimedLease route job).requests = 1 := rfl
    have window : (claimedLease route job).job.reservationRpmWindowStart = _ :=
      written.rpmWindowStart.trans counter.1
    rw [one, window]
    split
    · next rolled =>
        rw [Dict.totalAt_eq_zero]
        · linarith
        · intro entry member inside
          have before := opened.minute entry member
          linarith
    · have old := covers.minute
      unfold requestsInMinute at old
      linarith
  · have counter := applyProvisionalReservation_rpd calendar route row reservation notBeforeAt
      (some leaseToken)
    rw [← written.rpdDayKey, counter.2]
    refine (totalAt_claim (fun lease => lease.job.reservationRpdDayKey)
      CountedLease.requests fresh (claimedLease route job)).le.trans ?_
    have one : (claimedLease route job).requests = 1 := rfl
    have window : (claimedLease route job).job.reservationRpdDayKey = _ :=
      written.rpdDayKey.trans counter.1
    rw [one, window]
    split
    · next same =>
        have old := covers.day
        unfold requestsOnDay at old
        rw [same] at old
        linarith
    · next changed =>
        rw [Dict.totalAt_eq_zero]
        · linarith
        · intro entry member inside
          rcases keeps with stored | unused
          · exact absurd stored.symm changed
          · simp [CountedLease.requests, unused entry member inside]
  · have counter := applyProvisionalReservation_tpm calendar route row reservation notBeforeAt
      (some leaseToken)
    rw [← written.tpmWindowStart, counter.2]
    refine (totalAt_claim (fun lease => lease.job.reservationTpmWindowStart)
      CountedLease.tokensCounted fresh (claimedLease route job)).le.trans ?_
    have window : (claimedLease route job).job.reservationTpmWindowStart = _ :=
      written.tpmWindowStart.trans counter.1
    have amount : (claimedLease route job).tokensCounted =
        if 0 < limitOf route.tpm ∧ reservation ≤ limitOf route.tpm then reservation else 0 := by
      simp [claimedLease, fitsWindow, written.tokenReservation]
    have old := covers.tokens
    unfold tokensInWindow at old
    rw [amount, window]
    by_cases fits : 0 < limitOf route.tpm ∧ reservation ≤ limitOf route.tpm
    · rw [if_pos fits, if_pos fits]
      by_cases rolled : tpmWindowSpanMs route ≤ notBeforeAt - row.tpmWindowStart
      · rw [if_pos ⟨fits, rolled⟩, if_pos rolled, Dict.totalAt_eq_zero]
        · linarith
        · intro entry member inside
          have before := opened.tokens entry member
          linarith
      · rw [if_neg fun both => rolled both.2, if_neg rolled]
        linarith
    · rw [if_neg fits, if_neg fits, if_neg fun both => fits both.1]
      linarith

/-! ## What one settlement takes back -/

section

variable (route) (lease : CountedLease) (result : CallResult)

@[simp] theorem settledLease_job : (settledLease route lease result).job = lease.job := by
  unfold settledLease
  split
  · rfl
  · split <;> rfl

@[simp] theorem settledLease_settled : (settledLease route lease result).settled = true := by
  unfold settledLease
  split
  · rfl
  · split <;> rfl

theorem settledLease_requests (job : JobRow) :
    (settledLease route (claimedLease route job) result).requests =
      if refunded job result then 0 else 1 := by
  unfold settledLease
  by_cases refund : refunded job result = true
  · have taken : refunded (claimedLease route job).job result = true := refund
    rw [if_pos taken, if_pos refund]
    rfl
  · have kept : ¬ refunded (claimedLease route job).job result = true := refund
    rw [if_neg kept, if_neg refund]
    split <;> rfl

def tokensTakenBack (job : JobRow) : ℚ :=
  if fitsWindow route job then
    if refunded job result then job.tokenReservation
    else if result.outcome = .success then
      job.tokenReservation - (result.countedTokens route).getD job.tokenReservation
    else 0
  else 0

theorem settledLease_tokens (job : JobRow) :
    (settledLease route (claimedLease route job) result).tokensCounted =
      (claimedLease route job).tokensCounted - tokensTakenBack route result job := by
  unfold settledLease tokensTakenBack
  have same : (claimedLease route job).job = job := rfl
  have claimed : (claimedLease route job).tokensCounted =
    if fitsWindow route job then job.tokenReservation else 0 := rfl
  rw [same]
  by_cases fits : fitsWindow route job = true <;>
    by_cases refund : refunded job result = true <;>
      by_cases success : result.outcome = .success <;>
        simp [claimed, fits, refund, success]

end

variable {result : CallResult} {lease : CountedLease}

theorem settleLease_of_get? (found : leases.get? result.leaseToken = some lease) :
    settleLease route leases result =
      leases.set result.leaseToken (settledLease route lease result) := by
  unfold settleLease
  rw [found]

theorem LeasesOpened.settle (opened : LeasesOpened route row leases)
    (found : leases.get? result.leaseToken = some lease) :
    LeasesOpened route row (settleLease route leases result) := by
  have old := Dict.get?_eq_some_mem found
  rw [settleLease_of_get? found]
  constructor
  · intro entry member
    rcases Dict.mem_set member with same | kept
    · rw [same, settledLease_job]
      exact opened.minute _ old
    · exact opened.minute entry kept
  · intro entry member
    rcases Dict.mem_set member with same | kept
    · rw [same, settledLease_job]
      exact opened.tokens _ old
    · exact opened.tokens entry kept
  · intro entry member unsettled
    rcases Dict.mem_set member with same | kept
    · rw [same, settledLease_settled] at unsettled
      cases unsettled
    · exact opened.unsettled entry kept unsettled

theorem totalAt_settle [DecidableEq ω] (window : JobRow → ω) (amount : CountedLease → ℚ)
    (stored : ω) (found : leases.get? result.leaseToken = some lease) :
    (settleLease route leases result).totalAt (fun lease => window lease.job) amount stored =
      leases.totalAt (fun lease => window lease.job) amount stored -
        if window lease.job = stored then
          amount lease - amount (settledLease route lease result)
        else 0 := by
  have changed := Dict.totalAt_set (fun lease : CountedLease => window lease.job) amount stored
    found (settledLease route lease result)
  rw [settleLease_of_get? found]
  rw [settledLease_job] at changed
  split at changed
  · next inside =>
      rw [if_pos inside]
      linarith
  · next outside =>
      rw [if_neg outside]
      linarith

theorem settleLease_counts (opened : LeasesOpened route row leases)
    (found : leases.get? result.leaseToken = some lease) (unsettled : lease.settled = false)
    (minute token : ℚ) (day : String) :
    requestsInMinute minute (settleLease route leases result) =
        requestsInMinute minute leases -
          (if lease.job.reservationRpmWindowStart = minute ∧ refunded lease.job result then 1
          else 0) ∧
      requestsOnDay day (settleLease route leases result) =
        requestsOnDay day leases -
          (if lease.job.reservationRpdDayKey = day ∧ refunded lease.job result then 1 else 0) ∧
      tokensInWindow token (settleLease route leases result) =
        tokensInWindow token leases -
          if lease.job.reservationTpmWindowStart = token then
            tokensTakenBack route result lease.job
          else 0 := by
  have claimed := opened.unsettled _ (Dict.get?_eq_some_mem found) unsettled
  dsimp only at claimed
  have requests : lease.requests - (settledLease route lease result).requests =
      if refunded lease.job result then 1 else 0 := by
    rw [claimed, settledLease_requests]
    have one : (claimedLease route lease.job).requests = 1 := rfl
    have same : (claimedLease route lease.job).job = lease.job := rfl
    rw [one, same]
    split <;> norm_num
  have tokens : lease.tokensCounted - (settledLease route lease result).tokensCounted =
      tokensTakenBack route result lease.job := by
    rw [claimed, settledLease_tokens]
    have same : (claimedLease route lease.job).job = lease.job := rfl
    rw [same]
    ring
  refine ⟨?_, ?_, ?_⟩
  · refine (totalAt_settle JobRow.reservationRpmWindowStart CountedLease.requests minute
      found).trans ?_
    rw [requests, ite_and]
    rfl
  · refine (totalAt_settle JobRow.reservationRpdDayKey CountedLease.requests day found).trans ?_
    rw [requests, ite_and]
    rfl
  · refine (totalAt_settle JobRow.reservationTpmWindowStart CountedLease.tokensCounted token
      found).trans ?_
    rw [tokens]
    rfl

/-! ## Pending successes -/

/-- The tokens that the pending successes of a window will give back to it. -/
def pendingDelta (pending : Option PendingSuccess) (start : ℚ) : ℚ :=
  match pending with
  | none => 0
  | some pending => (pending.windowDeltas.get? start).getD 0

theorem pendingDelta_addPending (pending : Option PendingSuccess) (job : JobRow)
    (result : CallResult) (start : ℚ) :
    pendingDelta (addPending route pending job result) start = pendingDelta pending start +
      if settlesWindow route job result ∧ job.reservationTpmWindowStart = start then
        servedDelta route job result
      else 0 := by
  have stored : pendingDelta pending start =
      ((pending.getD {}).windowDeltas.get? start).getD 0 := by
    cases pending <;> rfl
  rw [stored]
  show (((if settlesWindow route job result then addWindowDelta (pending.getD {}).windowDeltas
    job.reservationTpmWindowStart (servedDelta route job result)
      else (pending.getD {}).windowDeltas) : Dict ℚ ℚ).get? start).getD 0 = _
  by_cases settles : settlesWindow route job result = true
  · rw [if_pos settles]
    unfold addWindowDelta
    rw [Dict.get?_set]
    by_cases same : job.reservationTpmWindowStart = start
    · simp [settles, same]
    · simp [same]
  · rw [if_neg settles, if_neg fun both => settles both.1, add_zero]

theorem tokensTakenBack_success
    (own : RefundsOwnWindow route row job result) (success : result.outcome = .success) :
    tokensTakenBack route result job =
      if settlesWindow route job result then servedDelta route job result else 0 := by
  have kept : ¬ refunded job result = true := fun refund =>
    ((refunded_iff job result).mp refund).1 success
  unfold tokensTakenBack settlesWindow fitsWindow
  by_cases limited : 0 < limitOf route.tpm
  · rw [own.reserved limited]
    unfold servedDelta
    rw [own.reserved limited]
    by_cases fits : job.tokenReservation ≤ limitOf route.tpm
    · cases usage : result.countedTokens route with
      | none => simp [limited, fits, kept, success]
      | some counted =>
          by_cases settled : job.tokenReservation - counted = 0 <;>
            simp [limited, fits, kept, success, settled]
    · simp [fits]
  · simp [limited]

structure PendingCover (pending : Option PendingSuccess) (row : RouteLedger) (leases : Leases) :
    Prop where
  minute : requestsInMinute row.rpmWindowStart leases ≤ row.rpmCount
  day : requestsOnDay row.rpdDayKey leases ≤ row.rpdCount
  tokens : tokensInWindow row.tpmWindowStart leases ≤
    row.tpmReserved - pendingDelta pending row.tpmWindowStart

/-- Two rows whose counters count in the same windows. -/
structure SameWindows (row other : RouteLedger) : Prop where
  minute : row.rpmWindowStart = other.rpmWindowStart
  day : row.rpdDayKey = other.rpdDayKey
  tokens : row.tpmWindowStart = other.tpmWindowStart

variable {other : RouteLedger}

theorem RefundsOwnWindow.transfer
    (own : RefundsOwnWindow route row job result) (same : SameWindows row other) :
    RefundsOwnWindow route other job result where
  reserved := own.reserved
  requests := by
    rw [← same.minute, ← same.day]
    exact own.requests
  tokens := by
    rw [← same.tokens]
    exact own.tokens

theorem LeasesOpened.transfer
    (opened : LeasesOpened route row leases) (same : SameWindows row other) :
    LeasesOpened route other leases where
  minute entry member := (opened.minute entry member).trans same.minute.le
  tokens entry member := (opened.tokens entry member).trans same.tokens.le
  unsettled := opened.unsettled

theorem SameWindows.trans {third : RouteLedger} (first : SameWindows row other)
    (second : SameWindows other third) : SameWindows row third :=
  ⟨first.minute.trans second.minute, first.day.trans second.day,
    first.tokens.trans second.tokens⟩

theorem sameWindows_flushPending (now : ℚ) (row : RouteLedger) (pending : Option PendingSuccess) :
    SameWindows row (flushPending route now row pending) := by
  cases pending with
  | none => exact ⟨rfl, rfl, rfl⟩
  | some pending => exact ⟨rfl, rfl, rfl⟩

variable {pending : Option PendingSuccess}

theorem PendingCover.flush (cover : PendingCover pending row leases) (now : ℚ) :
    PendingCover none (flushPending route now row pending) leases := by
  cases pending with
  | none => exact cover
  | some pending =>
      refine ⟨cover.minute, cover.day, ?_⟩
      have kept := cover.tokens
      show tokensInWindow row.tpmWindowStart leases ≤
        max 0 (row.tpmReserved - (pending.windowDeltas.get? row.tpmWindowStart).getD 0) - 0
      rw [sub_zero]
      exact kept.trans (le_max_right _ _)

theorem PendingCover.success (cover : PendingCover pending row leases)
    (opened : LeasesOpened route row leases)
    (found : leases.get? result.leaseToken = some lease) (unsettled : lease.settled = false)
    (own : RefundsOwnWindow route row lease.job result) (success : result.outcome = .success) :
    PendingCover (addPending route pending lease.job result) row
      (settleLease route leases result) := by
  have counts := settleLease_counts opened found unsettled row.rpmWindowStart row.tpmWindowStart
    row.rpdDayKey
  have kept : ¬ refunded lease.job result = true := fun refund =>
    ((refunded_iff lease.job result).mp refund).1 success
  constructor
  · rw [counts.1, if_neg fun both => kept both.2, sub_zero]
    exact cover.minute
  · rw [counts.2.1, if_neg fun both => kept both.2, sub_zero]
    exact cover.day
  · have covered := cover.tokens
    rw [counts.2.2, pendingDelta_addPending, tokensTakenBack_success own success, ite_and]
    by_cases inside : lease.job.reservationTpmWindowStart = row.tpmWindowStart
    · simp only [inside, if_true]
      linarith
    · simp only [inside, if_false, ite_self]
      linarith

theorem sameWindows_settleFailure (config : Config) (route : CatalogRoute) (rejectedInput : ℚ)
    (job : JobRow) (result : CallResult) (draws : Draws) (now : ℚ) (row : RouteLedger) :
    SameWindows row (settleFailure config route rejectedInput job result draws now row) := by
  have columns : ∃ rpmCount rpdCount tpmReserved fullTokenBudget,
      (settleFailure config route rejectedInput job result draws now row).quota =
        { row.quota with
          rpmCount := rpmCount, rpdCount := rpdCount, tpmReserved := tpmReserved
          fullTokenBudget := fullTokenBudget } := by
    cases refund : nonConsuming job result with
    | false =>
        exact ⟨_, _, _, _, settleFailure_quota_consuming config route rejectedInput job result draws
          now row refund⟩
    | true =>
        rw [settleFailure_quota_refunded config route rejectedInput job result draws now row refund]
        by_cases limited : 0 < limitOf route.tpm
        · exact ⟨_, _, _, _, refundClaim_quota route job result _ limited⟩
        · exact ⟨_, _, _, _, refundClaim_quota_unlimited route job result _ limited⟩
  obtain ⟨_, _, _, _, columns⟩ := columns
  exact ⟨(congrArg QuotaColumns.rpmWindowStart columns).symm,
    (congrArg QuotaColumns.rpdDayKey columns).symm,
    (congrArg QuotaColumns.tpmWindowStart columns).symm⟩

theorem settleFailure_counters
    (own : RefundsOwnWindow route row job result) (failed : result.outcome ≠ .success)
    (config : Config) (rejectedInput : ℚ) (draws : Draws) (now : ℚ) :
    row.rpmCount - (if job.reservationRpmWindowStart = row.rpmWindowStart ∧
        refunded job result then 1 else 0) ≤
        (settleFailure config route rejectedInput job result draws now row).rpmCount ∧
      row.rpdCount - (if job.reservationRpdDayKey = row.rpdDayKey ∧ refunded job result then 1
        else 0) ≤ (settleFailure config route rejectedInput job result draws now row).rpdCount ∧
      row.tpmReserved - (if job.reservationTpmWindowStart = row.tpmWindowStart then
        tokensTakenBack route result job else 0) ≤
        (settleFailure config route rejectedInput job result draws now row).tpmReserved := by
  cases refund : nonConsuming job result with
  | false =>
      have columns := settleFailure_quota_consuming config route rejectedInput job result draws now
        row refund
      have kept : ¬ refunded job result = true := fun given => by
        rw [((refunded_iff job result).mp given).2] at refund
        cases refund
      have nothing : tokensTakenBack route result job = 0 := by
        simp [tokensTakenBack, kept, failed]
      have minute : (settleFailure config route rejectedInput job result draws now row).rpmCount =
          row.rpmCount := congrArg QuotaColumns.rpmCount columns
      have day : (settleFailure config route rejectedInput job result draws now row).rpdCount =
          row.rpdCount := congrArg QuotaColumns.rpdCount columns
      have tokens : (settleFailure config route rejectedInput job result draws now
          row).tpmReserved = row.tpmReserved := congrArg QuotaColumns.tpmReserved columns
      rw [minute, day, tokens, nothing, if_neg fun both => kept both.2,
        if_neg fun both => kept both.2, ite_self, sub_zero, sub_zero, sub_zero]
      exact ⟨le_refl _, le_refl _, le_refl _⟩
  | true =>
      have given : refunded job result = true := (refunded_iff job result).mpr ⟨failed, refund⟩
      have columns := settleFailure_quota_refunded config route rejectedInput job result draws now
        row refund
      simp only [given, and_true]
      by_cases limited : 0 < limitOf route.tpm
      · rw [refundClaim_quota route job result _ limited] at columns
        have minute := congrArg QuotaColumns.rpmCount columns
        have day := congrArg QuotaColumns.rpdCount columns
        have tokens := congrArg QuotaColumns.tpmReserved columns
        refine ⟨le_of_le_of_eq ?_ minute.symm, le_of_le_of_eq ?_ day.symm,
          le_of_le_of_eq ?_ tokens.symm⟩
        · show _ ≤ if row.rpmWindowStart = job.reservationRpmWindowStart then
            max 0 (row.rpmCount - 1) else row.rpmCount
          by_cases inside : row.rpmWindowStart = job.reservationRpmWindowStart
          · rw [if_pos inside.symm, if_pos inside]
            exact le_max_right _ _
          · rw [if_neg (Ne.symm inside), if_neg inside, sub_zero]
        · show _ ≤ if row.rpdDayKey = job.reservationRpdDayKey then
            max 0 (row.rpdCount - 1) else row.rpdCount
          by_cases inside : row.rpdDayKey = job.reservationRpdDayKey
          · rw [if_pos inside.symm, if_pos inside]
            exact le_max_right _ _
          · rw [if_neg (Ne.symm inside), if_neg inside, sub_zero]
        · show _ ≤ if row.tpmWindowStart = job.reservationTpmWindowStart then
            max 0 (row.tpmReserved - settledReservation job result) else row.tpmReserved
          by_cases inside : row.tpmWindowStart = job.reservationTpmWindowStart
          · have fits := own.tokens given limited inside
            rw [if_pos inside.symm, if_pos inside, own.reserved limited]
            have taken : tokensTakenBack route result job = job.tokenReservation := by
              simp [tokensTakenBack, fitsWindow, limited, fits, given]
            rw [taken]
            exact le_max_right _ _
          · rw [if_neg (Ne.symm inside), if_neg inside, sub_zero]
      · rw [refundClaim_quota_unlimited route job result _ limited] at columns
        have minute := congrArg QuotaColumns.rpmCount columns
        have day := congrArg QuotaColumns.rpdCount columns
        have tokens := congrArg QuotaColumns.tpmReserved columns
        have windows := own.requests given limited
        have nothing : tokensTakenBack route result job = 0 := by
          simp [tokensTakenBack, fitsWindow, limited]
        refine ⟨le_of_le_of_eq ?_ minute.symm, le_of_le_of_eq ?_ day.symm,
          le_of_le_of_eq ?_ tokens.symm⟩
        · rw [if_pos windows.1.symm]
          exact le_max_right _ _
        · rw [if_pos windows.2.symm]
          exact le_max_right _ _
        · rw [nothing, ite_self, sub_zero]
          exact le_refl _

theorem PendingCover.failure
    (cover : PendingCover none row leases) (opened : LeasesOpened route row leases)
    (found : leases.get? result.leaseToken = some lease) (unsettled : lease.settled = false)
    (own : RefundsOwnWindow route row lease.job result) (failed : result.outcome ≠ .success)
    (rejectedInput : ℚ) (draws : Draws) (now : ℚ) :
    PendingCover none (settleFailure config route rejectedInput lease.job result draws now row)
      (settleLease route leases result) := by
  have counts := settleLease_counts opened found unsettled row.rpmWindowStart row.tpmWindowStart
    row.rpdDayKey
  have counters := settleFailure_counters own failed config rejectedInput draws now
  have same := sameWindows_settleFailure config route rejectedInput lease.job result draws now row
  constructor
  · rw [← same.minute, counts.1]
    linarith [cover.minute, counters.1]
  · rw [← same.day, counts.2.1]
    linarith [cover.day, counters.2.1]
  · rw [← same.tokens, counts.2.2]
    have covered := cover.tokens
    have kept := counters.2.2
    simp only [pendingDelta, sub_zero] at covered ⊢
    linarith

/-! ## Batches and runs -/

/-- What a batch needs of each of its reports: the job is still leased, and is
settled in the windows of its claim. -/
def RouteReport.Settleable (route : CatalogRoute) (row : RouteLedger) (leases : Leases) :
    RouteReport → Prop
  | .own _ job result _ => ∃ lease, leases.get? result.leaseToken = some lease ∧
      lease.settled = false ∧ lease.job = job ∧ RefundsOwnWindow route row job result
  | .sibling _ => True

theorem RouteReport.Settleable.keep
    {report : RouteReport} (settleable : report.Settleable route row leases)
    (same : SameWindows row other) (found : leases.get? result.leaseToken = some lease)
    (distinct : ∀ later ∈ report.result, later.leaseToken ≠ result.leaseToken) :
    report.Settleable route other (settleLease route leases result) := by
  cases report with
  | sibling _ => trivial
  | own _ job later _ =>
      obtain ⟨old, stored, unsettled, named, own⟩ := settleable
      refine ⟨old, ?_, unsettled, named, own.transfer same⟩
      rw [settleLease_of_get? found, Dict.get?_set_other _ _ (distinct later rfl)]
      exact stored

theorem settleReports_cover (reports : List RouteReport) (now : ℚ)
    (cover : PendingCover pending row leases) (opened : LeasesOpened route row leases)
    (settleable : ∀ report ∈ reports, report.Settleable route row leases)
    (distinct : ((reports.filterMap RouteReport.result).map CallResult.leaseToken).Nodup) :
    CountersCover (settleReports config route now reports pending row)
        (settleLeases route leases reports) ∧
      LeasesOpened route (settleReports config route now reports pending row)
        (settleLeases route leases reports) := by
  induction reports generalizing pending row leases with
  | nil =>
      have flushed : PendingCover none (flushPending route now row pending) leases :=
        cover.flush now
      have tokens := flushed.tokens
      simp only [pendingDelta, sub_zero] at tokens
      exact ⟨⟨flushed.minute, flushed.day, tokens⟩,
        opened.transfer (sameWindows_flushPending now row pending)⟩
  | cons report later induction =>
      cases report with
      | sibling blocked =>
          have blockedCover : PendingCover pending (blockUnavailable config blocked now row)
              leases := ⟨cover.minute, cover.day, cover.tokens⟩
          have same : SameWindows row (blockUnavailable config blocked now row) := ⟨rfl, rfl, rfl⟩
          refine induction blockedCover (opened.transfer same) ?_ distinct
          intro report member
          have old := settleable report (List.mem_cons_of_mem _ member)
          cases report with
          | sibling _ => trivial
          | own _ job result _ =>
              obtain ⟨lease, found, unsettled, named, own⟩ := old
              exact ⟨lease, found, unsettled, named, own.transfer same⟩
      | own rejectedInput job result draws =>
          obtain ⟨lease, found, unsettled, named, own⟩ :=
            settleable _ List.mem_cons_self
          subst named
          have parts := List.nodup_cons.mp distinct
          have others : ∀ report ∈ later, ∀ other ∈ report.result,
              other.leaseToken ≠ result.leaseToken := by
            intro report member other reported equal
            refine parts.1 ?_
            rw [← equal]
            exact List.mem_map_of_mem (List.mem_filterMap.mpr ⟨report, member, reported⟩)
          by_cases success : result.outcome = .success
          · have step : settleReports config route now
                (.own rejectedInput lease.job result draws :: later) pending row =
                settleReports config route now later
                  (addPending route pending lease.job result) row := by
              rw [settleReports, if_pos success]
            rw [step]
            exact induction (cover.success opened found unsettled own success)
              (opened.settle found)
              (fun report member => (settleable report (List.mem_cons_of_mem _ member)).keep
                ⟨rfl, rfl, rfl⟩ found (others report member)) parts.2
          · have flushed : SameWindows row (flushPending route now row pending) :=
              sameWindows_flushPending now row pending
            have settled := sameWindows_settleFailure config route rejectedInput lease.job result
              draws now (flushPending route now row pending)
            have same := flushed.trans settled
            have step : settleReports config route now
                (.own rejectedInput lease.job result draws :: later) pending row =
                settleReports config route now later none
                  (settleFailure config route rejectedInput lease.job result draws now
                    (flushPending route now row pending)) := by
              rw [settleReports, if_neg success]
            rw [step]
            exact induction
              ((cover.flush now).failure (opened.transfer flushed) found unsettled
                (own.transfer flushed) success rejectedInput draws now)
              ((opened.settle found).transfer same)
              (fun report member => (settleable report (List.mem_cons_of_mem _ member)).keep
                same found (others report member)) parts.2

theorem WindowRun.invariant {clock : ℚ}
    (run : WindowRun calendar config route (KeepsDay calendar route) (RefundsOwnWindow route) row
      leases clock) : CountersCover row leases ∧ LeasesOpened route row leases := by
  induction run with
  | start minute day tokens =>
      have none : ∀ entry ∈ ([] : Leases), False := fun entry member => by cases member
      exact ⟨⟨minute, day, tokens⟩, ⟨fun entry member => (none entry member).elim,
        fun entry member => (none entry member).elim,
        fun entry member => (none entry member).elim⟩⟩
  | claim job leaseToken reservation now notBeforeAt _ _ _ fresh written claimable induction =>
      exact ⟨induction.1.claim induction.2 written fresh claimable, induction.2.claim written⟩
  | @complete row leases clock reports now _ accepted distinct settleable induction =>
      have covered : PendingCover none row leases :=
        ⟨induction.1.minute, induction.1.day, by simpa [pendingDelta] using induction.1.tokens⟩
      refine settleReports_cover reports now covered induction.2 ?_ distinct
      intro report member
      have taken := accepted report member
      cases report with
      | sibling _ => trivial
      | own rejectedInput job result draws =>
          obtain ⟨lease, found, unsettled, named⟩ := taken
          exact ⟨lease, found, unsettled, named, settleable _ _ _ _ member⟩

end

/-- In a run whose claims keep to a day and whose settlements take back from the
windows of their claims, no counter undercounts. -/
theorem window_counters_cover (calendar : Calendar) (config : Config) (route : CatalogRoute)
    (row : RouteLedger) (leases : Leases) (clock : ℚ)
    (run : WindowRun calendar config route (KeepsDay calendar route) (RefundsOwnWindow route) row
      leases clock) : CountersCover row leases :=
  run.invariant.1

/-! ## Two claims a minute apart -/

/-- A route with a request limit and no token limit. -/
def unmeteredRoute : CatalogRoute where
  provider := "groq"
  rpm := some 60

/-- A job claimed for a thousand tokens in the minute window of an instant of
2024-10-04. -/
def claimedJob (leaseToken : String) (window : ℚ) : JobRow where
  id := leaseToken
  idempotencyKey := leaseToken
  requestDigest := "digest"
  state := .leased
  leaseToken := some leaseToken
  leaseRouteId := some "unmetered"
  tokenReservation := 1000
  reservationRpmWindowStart := window
  reservationRpdDayKey := "2024-10-04"

def firstStart : ℚ := 1728043200000

/-- Seventy seconds later, when the first minute window is over. -/
def secondStart : ℚ := 1728043270000

def afterFirst : RouteLedger :=
  applyProvisionalReservation utcCalendar unmeteredRoute {} 1000 firstStart (some "a")

def afterSecond : RouteLedger :=
  applyProvisionalReservation utcCalendar unmeteredRoute afterFirst 1000 secondStart (some "b")

def bothLeases : Leases :=
  [("a", claimedLease unmeteredRoute (claimedJob "a" firstStart)),
    ("b", claimedLease unmeteredRoute (claimedJob "b" secondStart))]

theorem twoClaims {mayClaim : RouteLedger → Leases → ℚ → Prop}
    {maySettle : RouteLedger → JobRow → CallResult → Prop} (first : mayClaim {} [] firstStart)
    (second : mayClaim afterFirst [("a", claimedLease unmeteredRoute (claimedJob "a" firstStart))]
      secondStart) :
    WindowRun utcCalendar {} unmeteredRoute mayClaim maySettle afterSecond bothLeases
      secondStart := by
  have started : WindowRun utcCalendar {} unmeteredRoute mayClaim maySettle {} [] 0 :=
    .start (le_refl 0) (le_refl 0) (le_refl 0)
  have claimed := started.claim (claimedJob "a" firstStart) "a" 1000 firstStart firstStart
    (by decide) (le_refl _) rfl
    ⟨rfl, rfl, by decide +kernel, by decide +kernel, by decide +kernel⟩ first
  exact claimed.claim (claimedJob "b" secondStart) "b" 1000 secondStart secondStart
    (by decide) (le_refl _) rfl
    ⟨rfl, rfl, by decide +kernel, by decide +kernel, by decide +kernel⟩ second

def lateRefusal : CallResult where
  jobId := "a"
  leaseToken := "a"
  outcome := .retryableError
  providerStatusCode := some 503
  failureClass := some .upstreamCapacity
  actualStartAt := some firstStart

def lateReply : CallResult where
  jobId := "a"
  leaseToken := "a"
  outcome := .success
  providerStatusCode := some 200
  actualStartAt := some firstStart

theorem keepsDay_twoClaims :
    KeepsDay utcCalendar unmeteredRoute {} [] firstStart ∧
      KeepsDay utcCalendar unmeteredRoute afterFirst
        [("a", claimedLease unmeteredRoute (claimedJob "a" firstStart))] secondStart :=
  ⟨.inr (by simp), .inl (by decide +kernel)⟩

/-- Two claims, of which the first is answered once its minute is over. -/
theorem window_counters_cover_lateReply :
    CountersCover
      (settleReports {} unmeteredRoute secondStart
        [.own 0 (claimedJob "a" firstStart) lateReply {}] none afterSecond)
      (settleLeases unmeteredRoute bothLeases
        [.own 0 (claimedJob "a" firstStart) lateReply {}]) :=
  window_counters_cover utcCalendar {} unmeteredRoute _ _ secondStart
    (.complete [.own 0 (claimedJob "a" firstStart) lateReply {}] secondStart
      (twoClaims keepsDay_twoClaims.1 keepsDay_twoClaims.2)
      (by
        intro report member
        rw [List.mem_singleton.mp member]
        exact ⟨_, rfl, rfl, rfl⟩)
      (by decide)
      (by
        intro rejectedInput job result draws member
        cases List.mem_singleton.mp member
        have kept : ¬ refunded (claimedJob "a" firstStart) lateReply = true := by decide
        exact ⟨fun _ => by decide, fun refund => absurd refund kept,
          fun refund => absurd refund kept⟩))

/-- The refusal of the first call takes back the request of the second. -/
theorem late_refund_undercounts :
    ∃ row leases clock,
      WindowRun utcCalendar {} unmeteredRoute (fun _ _ _ => True) (fun _ _ _ => True) row leases
          clock ∧
        requestsInMinute row.rpmWindowStart leases = 1 ∧ row.rpmCount = 0 ∧
          ¬ CountersCover row leases := by
  have claims : WindowRun utcCalendar {} unmeteredRoute (fun _ _ _ => True) (fun _ _ _ => True)
      afterSecond bothLeases secondStart := twoClaims trivial trivial
  have refused := claims.complete [.own 0 (claimedJob "a" firstStart) lateRefusal {}] secondStart
      (by
        intro report member
        rw [List.mem_singleton.mp member]
        exact ⟨_, rfl, rfl, rfl⟩)
      (by decide) (fun _ _ _ _ _ => trivial)
  refine ⟨_, _, _, refused, by decide +kernel, by decide +kernel, ?_⟩
  intro cover
  have minute := cover.minute
  revert minute
  decide +kernel

end CityPods.Dispatch
