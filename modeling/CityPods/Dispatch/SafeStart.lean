import CityPods.Dispatch.InputMinute
import CityPods.Foundation.Threshold

/-! # The pacing gate is sound and least

Every limit of a route and its provider as a predicate on the start of a job. The
gate answers with the first start at which all of them hold.
-/

namespace CityPods.Dispatch

open Foundation Earliest SlidingWindow

/-! ## The limits at a start -/

/-- The input in the trailing minute, with the job's own, is within the quota. -/
def InputMinuteHolds (route : CatalogRoute) (ledger : RouteLedger) (inputEstimate start : ℚ) : Prop :=
  isGemini route = true → 0 < limitOf route.tpm →
    tokensAfter (start - tpmWindowSpanMs route) (inputWindow ledger) +
      min inputEstimate (limitOf route.tpm) ≤ limitOf route.tpm

/-- A counter of a fixed window is below its limit, or the window is over. -/
def WindowHolds (windowStart count : ℚ) (limit : Option ℚ) (windowMs start : ℚ) : Prop :=
  0 < limitOf limit → windowMs ≤ start - windowStart ∨ count < limitOf limit

/-- The day's requests are below the quota, or the provider has reset it. -/
def DailyQuotaHolds (calendar : Calendar) (route : CatalogRoute) (ledger : RouteLedger)
    (now start : ℚ) : Prop :=
  0 < limitOf route.rpd → ledger.rpdDayKey = calendar.routeDay route now →
    ledger.rpdCount < limitOf route.rpd ∨
      nextZonedMidnightMs calendar (routeResetTimezone route) now ≤ start

/-- A reservation within one window's allowance fits what the window has left. -/
def TokenWindowHolds (tpm span windowStart windowReserved reservation start : ℚ) : Prop :=
  reservation ≤ tpm → span ≤ start - windowStart ∨ windowReserved + reservation ≤ tpm

/-- The debt of the daily bucket as it is read now and drains until a start. -/
def dailyTokenDebtAt (route : CatalogRoute) (ledger : RouteLedger) (now start : ℚ) : ℚ :=
  let updatedAt := if ledger.tpdUpdatedAt = 0 then now else ledger.tpdUpdatedAt
  max 0 (ledger.tpdUsed - (start - updatedAt) * limitOf route.tpd / msPerDay)

def DailyTokensHold (route : CatalogRoute) (ledger : RouteLedger) (reservation now start : ℚ) : Prop :=
  0 < limitOf route.tpd →
    dailyTokenDebtAt route ledger now start + reservation ≤ limitOf route.tpd

def RouteBucketHolds (route : CatalogRoute) (ledger : RouteLedger) (reservation start : ℚ) : Prop :=
  reservation ≤ availableTokenBudget (limitOf route.tpm) ledger start

/-- The tokens of the provider's shared bucket, which holds five windows at most. -/
def providerTokenBudget (tpm : ℚ) (ledger : ProviderLedger) (start : ℚ) : ℚ :=
  min (tpm * fullTokenBudgetWindows)
    (ledger.fullTokenBudget + max 0 (start - ledger.tokenBudgetUpdatedAt) * tpm / msPerMinute)

def ProviderHolds (route : CatalogRoute) (options : PacingOptions) (reservation start : ℚ) : Prop :=
  ∀ tpm ledger, providerLimit route options = some (tpm, ledger) →
    TokenWindowHolds tpm msPerMinute ledger.tpmWindowStart ledger.tpmReserved reservation start ∧
      reservation ≤ providerTokenBudget tpm ledger start

def BlockOver (ledger : RouteLedger) (start : ℚ) : Prop :=
  ∀ blockedUntil ∈ ledger.blockedUntil, blockedUntil ≤ start

structure LimitsHold (calendar : Calendar) (route : CatalogRoute) (ledger : RouteLedger)
    (job : SizedJob) (now : ℚ) (options : PacingOptions) (start : ℚ) : Prop where
  dailyTokens : DailyTokensHold route ledger (reservationFor route job options) now start
  inputMinute : InputMinuteHolds route ledger
    (scaledInputTokens job.inputTokenEstimate (options.ratio route)) start
  requestsPerMinute : WindowHolds ledger.rpmWindowStart ledger.rpmCount route.rpm
    (rpmWindowDurationMs route) start
  requestsPerDay : DailyQuotaHolds calendar route ledger now start
  tokenWindow : 0 < limitOf route.tpm → TokenWindowHolds (limitOf route.tpm) (tpmWindowSpanMs route)
    ledger.tpmWindowStart ledger.tpmReserved (reservationFor route job options) start
  tokenBucket : 0 < limitOf route.tpm →
    RouteBucketHolds route ledger (reservationFor route job options) start
  provider : ProviderHolds route options (reservationFor route job options) start
  buffer : effectiveBufferSeconds ledger start = 0
  block : BlockOver ledger start

/-- The timestamps that the ledgers hold are not after an instant. -/
structure StoredBy (ledger : RouteLedger) (options : PacingOptions) (now : ℚ) : Prop where
  inputWindow : ∀ entry ∈ ledger.inputWindow, entry.atMs ≤ now
  rpmWindow : ledger.rpmWindowStart ≤ now
  tpmWindow : ledger.tpmWindowStart ≤ now
  tokenBudget : ledger.tokenBudgetUpdatedAt ≤ now
  dailyTokens : ledger.tpdUpdatedAt ≤ now
  buffer : ledger.bufferUpdatedAt ≤ now
  accepted : ledger.inputAcceptedAt ≤ now
  rejected : ledger.inputRejectedAt ≤ now
  providerWindow : ∀ provider ∈ options.providerLedger, provider.tpmWindowStart ≤ now
  providerBudget : ∀ provider ∈ options.providerLedger, provider.tokenBudgetUpdatedAt ≤ now

def WholeMs (time : ℚ) : Prop := ∃ ms : ℤ, time = ms

/-- The limits that no waiting meets. -/
inductive PermanentlyRefused (route : CatalogRoute) (ledger : RouteLedger) (job : SizedJob) (now : ℚ)
    (options : PacingOptions) : Prop
  | paused : route.rpd = some 0 → PermanentlyRefused route ledger job now options
  | size (refusal : Refusal) : options.contextProbe = false →
      inputSizeRefusal route ledger job.inputTokenEstimate (some (options.ratio route))
        options.admitRatio now options.ceilingTolerance = some refusal →
      PermanentlyRefused route ledger job now options
  | promptCap : options.contextProbe = false → 0 < ledger.promptCapEstimate →
      ledger.promptCapEstimate < job.inputTokenEstimate →
      PermanentlyRefused route ledger job now options
  | dailyTokens : 0 < limitOf route.tpd → limitOf route.tpd < reservationFor route job options →
      PermanentlyRefused route ledger job now options
  | inputMinute : isGemini route = true → 0 < limitOf route.tpm →
      limitOf route.tpm < scaledInputTokens job.inputTokenEstimate
        (minLimit (options.ratio route) options.admitRatio) →
      PermanentlyRefused route ledger job now options
  | provider (tpm : ℚ) (shared : ProviderLedger) : providerLimit route options = some (tpm, shared) →
      tpm * fullTokenBudgetWindows < reservationFor route job options →
      PermanentlyRefused route ledger job now options

/-! ## Each push is the first start of its limit -/

section Pushes

variable {route : CatalogRoute} {ledger : RouteLedger} {options : PacingOptions}
  {now start reservation : ℚ}

theorem fixedWindow_first (windowStart count : ℚ) (limit : Option ℚ) (windowMs : ℚ)
    (late : now ≤ start) :
    First WholeMs (WindowHolds windowStart count limit windowMs) start
      (max start (fixedWindowReadyAt windowStart count limit windowMs now)) := by
  unfold fixedWindowReadyAt
  split
  next unlimited =>
    rw [max_eq_left late]
    exact .unlimited fun time _ limited => absurd limited (not_lt.mpr unlimited)
  split
  next above =>
    rw [max_eq_left late]
    exact .unlimited fun time after _ => Or.inl (by linarith)
  split
  next room =>
    rw [max_eq_left late]
    exact .unlimited fun time _ _ => Or.inr room
  next limited _ full =>
    refine .threshold (fun time _ opened _ => Or.inl (by linarith)) fun time _ _ early holds => ?_
    rcases holds (not_le.mp limited) with above | room
    · linarith
    · exact full room

variable (route ledger) in
theorem dailyQuota_first (calendar : Calendar) (late : now ≤ start) :
    First WholeMs (DailyQuotaHolds calendar route ledger now) start
      (max start (dailyQuotaReadyAt calendar route ledger now)) := by
  unfold dailyQuotaReadyAt
  split
  next unlimited =>
    rw [max_eq_left late]
    exact .unlimited fun time _ limited => absurd limited (not_lt.mpr unlimited)
  split
  next reset =>
    rw [max_eq_left late]
    exact .unlimited fun time _ _ today => absurd today reset
  split
  next room =>
    rw [max_eq_left late]
    exact .unlimited fun time _ _ _ => Or.inl room
  next limited today full =>
    refine .threshold (fun time _ opened _ _ => Or.inr opened) fun time _ _ early holds => ?_
    rcases holds (not_le.mp limited) (not_not.mp today) with room | reset
    · exact full room
    · exact absurd early (not_lt.mpr reset)

variable (reservation) in
theorem tokenWindow_first (tpm span windowStart windowReserved : ℚ) (late : now ≤ start) :
    First WholeMs (TokenWindowHolds tpm span windowStart windowReserved reservation) start
      (pushTokenWindow tpm span windowStart windowReserved reservation now start) := by
  unfold pushTokenWindow
  by_cases stale : span ≤ now - windowStart
  · -- An empty window has room for what one window allows.
    simp only [decide_eq_true stale, if_true, zero_add]
    rw [if_neg fun both => absurd both.2 (not_lt.mpr both.1)]
    exact .unlimited fun time after _ => Or.inl (by linarith)
  · simp only [decide_eq_false stale, Bool.false_eq_true, if_false]
    split
    next full =>
      refine .threshold (fun time _ opened _ => Or.inl (by linarith)) fun time _ _ early holds => ?_
      rcases holds full.1 with above | room
      · linarith
      · exact absurd full.2 (not_lt.mpr room)
    next room =>
      exact .unlimited fun time _ small => Or.inr (not_lt.mp fun above => room ⟨small, above⟩)

/-- What a bucket with `available` now has at a later start. -/
def refilledBy (tpm available now start : ℚ) : ℚ := available + (start - now) * (tpm / msPerMinute)

theorem msPerMinute_pos : 0 < msPerMinute := by norm_num [msPerMinute]

theorem msPerDay_pos : 0 < msPerDay := by norm_num [msPerDay]

/-- A whole number of milliseconds after now is before a wait exactly when it is before
the wait rounded up. -/
theorem wholeMs_lt {time wait : ℚ} (whole : WholeMs time) (wholeNow : WholeMs now)
    (early : time < now + ⌈wait⌉) : time - now < wait := by
  obtain ⟨ms, rfl⟩ := whole
  obtain ⟨nowMs, rfl⟩ := wholeNow
  have below : ms - nowMs < ⌈wait⌉ := by
    have : (ms : ℚ) < ((nowMs + ⌈wait⌉ : ℤ) : ℚ) := by
      push_cast
      exact early
    have := Int.cast_lt.mp this
    omega
  have := Int.lt_ceil.mp below
  push_cast at this
  exact this

variable {tpm : ℚ}

variable (reservation) in
theorem tokenBucket_first (available : ℚ) (limited : 0 < tpm) (late : now ≤ start)
    (wholeNow : WholeMs now) :
    First WholeMs (fun time => reservation ≤ refilledBy tpm available now time) start
      (pushTokenBucket tpm available reservation now start) := by
  have wait (time : ℚ) : reservation ≤ refilledBy tpm available now time ↔
      (reservation - available) * msPerMinute / tpm ≤ time - now := by
    rw [refilledBy, ← sub_le_iff_le_add', div_le_iff₀ limited, mul_div_assoc', le_div_iff₀ msPerMinute_pos]
  unfold pushTokenBucket
  rw [max_eq_right (sub_nonneg.mpr late)]
  split
  next short =>
    have waits : start - now < (reservation - available) * msPerMinute / tpm :=
      not_le.mp fun enough => absurd short (not_lt.mpr ((wait start).mpr enough))
    have positive : 0 ≤ ⌈(reservation - available) * msPerMinute / tpm⌉ :=
      Int.ceil_nonneg (by linarith)
    rw [max_eq_right positive]
    refine .threshold (fun time _ opened => (wait time).mpr ?_) fun time whole _ early enough => ?_
    · have := Int.le_ceil ((reservation - available) * msPerMinute / tpm)
      linarith
    · exact absurd ((wait time).mp enough) (not_le.mpr (wholeMs_lt whole wholeNow early))
  next enough =>
    refine .unlimited fun time after => (wait time).mpr ?_
    have := (wait start).mp (not_lt.mp enough)
    linarith

theorem drained_le {debt drained room : ℚ} (drains : 0 ≤ drained) (positive : 0 ≤ room) :
    max 0 (debt - drained) ≤ room ↔ max 0 debt - room ≤ drained := by
  rw [max_le_iff, and_iff_right positive, sub_le_iff_le_add, sub_le_iff_le_add, max_le_iff,
    and_iff_right (add_nonneg drains positive), add_comm room]

theorem dailyTokenDebtAt_le (late : now ≤ start) (stored : ledger.tpdUpdatedAt ≤ now)
    (limited : 0 < limitOf route.tpd) (small : reservation ≤ limitOf route.tpd) :
    dailyTokenDebtAt route ledger now start + reservation ≤ limitOf route.tpd ↔
      (dailyTokenDebt route ledger now + reservation - limitOf route.tpd) * msPerDay /
        limitOf route.tpd ≤ start - now := by
  set updatedAt := if ledger.tpdUpdatedAt = 0 then now else ledger.tpdUpdatedAt with updatedAt_eq
  have past : updatedAt ≤ now := by
    rw [updatedAt_eq]
    split
    · exact le_refl now
    · exact stored
  set debt := ledger.tpdUsed - (now - updatedAt) * limitOf route.tpd / msPerDay with debt_eq
  have current : dailyTokenDebt route ledger now = max 0 debt := by
    simp only [dailyTokenDebt, if_pos limited, ← updatedAt_eq, max_eq_right (sub_nonneg.mpr past)]
    rfl
  have later : dailyTokenDebtAt route ledger now start =
      max 0 (debt - (start - now) * limitOf route.tpd / msPerDay) := by
    simp only [dailyTokenDebtAt, ← updatedAt_eq, debt_eq]
    congr 1
    ring
  have drains : 0 ≤ (start - now) * limitOf route.tpd / msPerDay :=
    div_nonneg (mul_nonneg (sub_nonneg.mpr late) limited.le) msPerDay_pos.le
  rw [later, current, ← le_sub_iff_add_le, drained_le drains (sub_nonneg.mpr small),
    div_le_iff₀ limited, le_div_iff₀ msPerDay_pos]
  ring_nf

variable (route reservation) in
theorem dailyTokens_first (late : now ≤ start) (wholeNow : WholeMs now)
    (stored : ledger.tpdUpdatedAt ≤ now)
    (small : 0 < limitOf route.tpd → reservation ≤ limitOf route.tpd) :
    First WholeMs (DailyTokensHold route ledger reservation now) start
      (pushDailyTokens route ledger reservation now start) := by
  simp only [pushDailyTokens]
  by_cases limited : 0 < limitOf route.tpd
  · have drains (time : ℚ) (after : start ≤ time) :=
      dailyTokenDebtAt_le (late.trans after) stored limited (small limited)
    set wait := (dailyTokenDebt route ledger now + reservation - limitOf route.tpd) * msPerDay /
      limitOf route.tpd
    split
    next =>
      refine .threshold (fun time after opened _ => (drains time after).mpr ?_)
        fun time whole after early holds => ?_
      · have := Int.le_ceil wait
        linarith
      · exact absurd ((drains time after).mp (holds limited)) (not_le.mpr
          (wholeMs_lt whole wholeNow early))
    next none =>
      refine .unlimited fun time after _ => (drains time after).mpr ?_
      have covered : dailyTokenDebt route ledger now + reservation - limitOf route.tpd ≤ 0 :=
        not_lt.mp fun deficit => none ⟨limited, deficit⟩
      have negative : wait ≤ 0 :=
        div_nonpos_of_nonpos_of_nonneg
          (mul_nonpos_of_nonpos_of_nonneg covered msPerDay_pos.le) limited.le
      linarith
  · rw [if_neg fun both => limited both.1]
    exact .unlimited fun time _ positive => absurd positive limited

theorem buffer_first (late : now ≤ start) (stored : ledger.bufferUpdatedAt ≤ now) :
    First WholeMs (fun time => effectiveBufferSeconds ledger time = 0) start
      (pushBuffer ledger now start) := by
  unfold pushBuffer effectiveBufferSeconds
  by_cases spent : ledger.bufferSeconds ≤ 0 ∨ ledger.bufferUpdatedAt ≤ 0
  · simp only [if_pos spent, zero_mul, lt_irrefl, if_false]
    exact .unlimited fun _ _ => trivial
  · simp only [if_neg spent]
    have decays (time : ℚ) (after : now ≤ time) :
        max 0 (ledger.bufferSeconds - max 0 ((time - ledger.bufferUpdatedAt) / 1000)) = 0 ↔
          (ledger.bufferSeconds - (now - ledger.bufferUpdatedAt) / 1000) * 1000 ≤ time - now := by
      have elapsed : 0 ≤ (time - ledger.bufferUpdatedAt) / 1000 := by linarith
      rw [max_eq_right elapsed, max_eq_left_iff]
      constructor <;> intro bound <;> linarith
    have elapsed : 0 ≤ (now - ledger.bufferUpdatedAt) / 1000 := by linarith
    rw [max_eq_right elapsed]
    set owed := ledger.bufferSeconds - (now - ledger.bufferUpdatedAt) / 1000
    split
    next owes =>
      have positive : 0 < owed := not_le.mp fun none => by
        rw [max_eq_left none, zero_mul] at owes
        exact lt_irrefl 0 owes
      rw [max_eq_right positive.le]
      refine .threshold (fun time after opened => (decays time (late.trans after)).mpr ?_)
        fun time _ after early above => ?_
      · linarith
      · have := (decays time (late.trans after)).mp above
        linarith
    next none =>
      refine .unlimited fun time after => (decays time (late.trans after)).mpr ?_
      have spent : owed ≤ 0 := not_lt.mp fun positive => none (by
        rw [max_eq_right positive.le]
        linarith)
      linarith

variable (ledger) in
theorem block_first : First WholeMs (BlockOver ledger) start (pushBlocked ledger start) := by
  unfold pushBlocked
  split
  next free =>
    refine .unlimited fun time _ blockedUntil blocked => ?_
    rw [free] at blocked
    cases blocked
  next blockedUntil blocked =>
    refine .threshold (fun time _ opened other same => ?_) fun time _ _ early above => ?_
    · rw [blocked] at same
      obtain rfl := Option.some.inj same
      exact opened
    · exact absurd (above blockedUntil blocked) (not_le.mpr early)

/-! ## The trailing minute -/

section

variable {tpm windowTokens span : ℚ}

/-- Before the start that the entries push to, they leave the job no room. -/
theorem inputMinutePush_least {entries : List InputEntry}
    (sorted : entries.Pairwise fun left right => left.atMs ≤ right.atMs) {time : ℚ}
    (early : time < inputMinutePush tpm windowTokens span entries
      (entries.map InputEntry.tokens).sum start) (late : start ≤ time)
    (positive : ∀ entry ∈ entries, 0 < entry.tokens) :
    tpm < tokensAfter (time - span) entries + windowTokens := by
  induction entries generalizing start with
  | nil => exact absurd early (not_lt.mpr late)
  | cons entry later induction =>
      have part := List.pairwise_cons.mp sorted
      have rest : ((entry :: later).map InputEntry.tokens).sum - entry.tokens =
          (later.map InputEntry.tokens).sum := by
        simp
      have own := positive entry List.mem_cons_self
      have others : ∀ other ∈ later, 0 < other.tokens := fun other member =>
        positive other (List.mem_cons_of_mem entry member)
      unfold inputMinutePush at early
      split at early
      · exact absurd early (not_lt.mpr late)
      next full =>
        rw [rest] at early
        by_cases inside : time - span < entry.atMs
        · -- All the entries are still in the window.
          have all : tokensAfter (time - span) (entry :: later) =
              ((entry :: later).map InputEntry.tokens).sum := by
            unfold tokensAfter weightWhere
            rw [List.filter_eq_self.mpr]
            intro other member
            rcases List.mem_cons.mp member with rfl | member
            · exact decide_eq_true inside
            · exact decide_eq_true (inside.trans_le (part.1 other member))
          rw [all]
          exact not_le.mp full
        · have after : max start (entry.atMs + span) ≤ time := max_le late (by linarith)
          rw [tokensAfter, weightWhere_cons, if_neg inside, zero_add]
          exact induction part.2 early after others

end

variable (route ledger) in
theorem inputMinute_first (inputEstimate : ℚ) :
    First WholeMs (InputMinuteHolds route ledger inputEstimate) start
      (pushInputMinute route ledger inputEstimate start) := by
  simp only [pushInputMinute]
  split
  next limited =>
    set span := tpmWindowSpanMs route
    set recent := (inputWindow ledger).filter fun entry => decide (start - span < entry.atMs)
      with recent_eq
    have positive : ∀ entry ∈ recent, 0 < entry.tokens := fun entry member =>
      inputWindow_positive (List.mem_filter.mp member).1
    have among {time : ℚ} (late : start ≤ time) :
        tokensAfter (time - span) (inputWindow ledger) = tokensAfter (time - span) recent :=
      tokensAfter_recent (sub_le_sub_right late span)
    constructor
    case le => exact le_inputMinutePush _ _ _ _ _ _
    case sound =>
      intro time after _ _
      have fits : tokensAfter (inputMinutePush (limitOf route.tpm)
            (min inputEstimate (limitOf route.tpm)) span recent
              (recent.map InputEntry.tokens).sum start - span) recent +
          min inputEstimate (limitOf route.tpm) ≤ limitOf route.tpm :=
        inputMinutePush_fits (min_le_right _ _) positive start
      have fewer := tokensAfter_antitone positive (sub_le_sub_right after span)
      rw [among ((le_inputMinutePush _ _ _ _ _ _).trans after)]
      linarith
    case least =>
      intro time _ late early holds
      have sorted : recent.Pairwise fun left right => left.atMs ≤ right.atMs :=
        (List.pairwise_insertionSort (fun left right : InputEntry => left.atMs ≤ right.atMs) _).filter _
      have above := inputMinutePush_least sorted early late positive
      have room := holds limited.1 limited.2
      rw [among late] at room
      exact absurd above (not_lt.mpr room)
  next unlimited =>
    exact .unlimited fun _ _ gemini limited => absurd ⟨gemini, limited⟩ unlimited

/-! ## The token buckets -/

variable (route reservation) in
theorem routeTokens_first (late : now ≤ start) (wholeNow : WholeMs now)
    (stored : ledger.tokenBudgetUpdatedAt ≤ now) :
    First WholeMs (fun time =>
        (0 < limitOf route.tpm → TokenWindowHolds (limitOf route.tpm) (tpmWindowSpanMs route)
          ledger.tpmWindowStart ledger.tpmReserved reservation time) ∧
        (0 < limitOf route.tpm → RouteBucketHolds route ledger reservation time)) start
      (pushRouteTokens route ledger reservation now start) := by
  unfold pushRouteTokens
  dsimp only
  by_cases limited : 0 < limitOf route.tpm
  · have window := tokenWindow_first reservation (limitOf route.tpm)
      (tpmWindowSpanMs route) ledger.tpmWindowStart ledger.tpmReserved late
    have bucket := tokenBucket_first reservation
      (availableTokenBudget (limitOf route.tpm) ledger now) limited
      (late.trans window.le) wholeNow
    rw [if_pos limited]
    refine (window.and bucket).congr fun time after => ?_
    have refilled : refilledBy (limitOf route.tpm)
        (availableTokenBudget (limitOf route.tpm) ledger now) now time =
          availableTokenBudget (limitOf route.tpm) ledger time := by
      rw [refilledBy, availableTokenBudget, availableTokenBudget,
        max_eq_right (sub_nonneg.mpr stored),
        max_eq_right (sub_nonneg.mpr (stored.trans (late.trans after)))]
      ring
    rw [refilled]
    simp only [limited, forall_const, RouteBucketHolds]
  · rw [if_neg limited]
    exact .unlimited fun _ _ => ⟨fun positive => absurd positive limited,
      fun positive => absurd positive limited⟩

variable {shared : ProviderLedger}

/-- A reservation that five windows cover waits for the same refill with or without the
bound on the bucket. -/
theorem le_providerTokenBudget (limited : 0 < tpm)
    (stored : shared.tokenBudgetUpdatedAt ≤ now) (late : now ≤ start)
    (small : reservation ≤ tpm * fullTokenBudgetWindows) :
    reservation ≤ refilledBy tpm (providerTokenBudget tpm shared now) now start ↔
      reservation ≤ providerTokenBudget tpm shared start := by
  set refilled := shared.fullTokenBudget + (now - shared.tokenBudgetUpdatedAt) * tpm / msPerMinute
    with refilled_eq
  have added : 0 ≤ (start - now) * (tpm / msPerMinute) :=
    mul_nonneg (sub_nonneg.mpr late) (div_nonneg limited.le msPerMinute_pos.le)
  have later : shared.fullTokenBudget + (start - shared.tokenBudgetUpdatedAt) * tpm / msPerMinute =
      refilled + (start - now) * (tpm / msPerMinute) := by
    rw [refilled_eq]
    ring
  rw [refilledBy, providerTokenBudget, providerTokenBudget, max_eq_right (sub_nonneg.mpr stored),
    max_eq_right (sub_nonneg.mpr (stored.trans late)), later, ← refilled_eq, le_min_iff,
    and_iff_right small]
  rcases le_total (tpm * fullTokenBudgetWindows) refilled with full | low
  · rw [min_eq_left full]
    exact ⟨fun _ => by linarith, fun _ => by linarith⟩
  · rw [min_eq_right low]

theorem providerLimit_eq_some (limit : providerLimit route options = some (tpm, shared)) :
    0 < tpm ∧ shared ∈ options.providerLedger := by
  unfold providerLimit at limit
  dsimp only at limit
  split at limit
  next limited =>
    obtain ⟨held, found, same⟩ := Option.map_eq_some_iff.mp limit
    cases same
    exact ⟨limited, found⟩
  next => cases limit

variable (route reservation) in
theorem provider_first (late : now ≤ start) (wholeNow : WholeMs now)
    (stored : ∀ provider ∈ options.providerLedger, provider.tokenBudgetUpdatedAt ≤ now)
    (small : ∀ tpm shared, providerLimit route options = some (tpm, shared) →
      reservation ≤ tpm * fullTokenBudgetWindows) :
    First WholeMs (ProviderHolds route options reservation) start
      (pushProviderTokens route options reservation now start) := by
  unfold pushProviderTokens
  cases limit : providerLimit route options with
  | none =>
      refine .unlimited fun time _ tpm shared given => ?_
      rw [limit] at given
      cases given
  | some pair =>
      obtain ⟨tpm, shared⟩ := pair
      obtain ⟨limited, held⟩ := providerLimit_eq_some limit
      have window := tokenWindow_first reservation tpm msPerMinute
        shared.tpmWindowStart shared.tpmReserved late
      have bucket := tokenBucket_first reservation
        (providerTokenBudget tpm shared now) limited (late.trans window.le) wholeNow
      refine (window.and bucket).congr fun time after => ?_
      rw [le_providerTokenBudget limited (stored shared held) (late.trans after) (small tpm shared limit)]
      constructor
      · intro both other ledger given
        rw [limit] at given
        cases given
        exact both
      · intro holds
        exact holds tpm shared limit

end Pushes

/-! ## The gate -/

section Gate

variable {calendar : Calendar} {route : CatalogRoute} {ledger : RouteLedger} {job : SizedJob}
  {candidate now : ℚ} {options : PacingOptions}

theorem permanentRefusal_isSome :
    (permanentRefusal route ledger job now options).isSome ↔
      PermanentlyRefused route ledger job now options := by
  unfold permanentRefusal
  extract_lets inputRatio reservation admitEstimate size
  split
  next paused => exact iff_of_true rfl (.paused paused)
  next notPaused =>
    split
    next refused =>
      refine iff_of_true refused ?_
      unfold size at refused
      split at refused
      next => cases refused
      next noProbe =>
        obtain ⟨refusal, same⟩ := Option.isSome_iff_exists.mp refused
        exact .size refusal (eq_false_of_ne_true noProbe) same
    next sized =>
      split
      next capped =>
        exact iff_of_true rfl (.promptCap (eq_false_of_ne_true capped.1) capped.2.1 capped.2.2)
      next uncapped =>
        split
        next daily => exact iff_of_true rfl (.dailyTokens daily.1 daily.2)
        next noDaily =>
          split
          next minute => exact iff_of_true rfl (.inputMinute minute.1 minute.2.1 minute.2.2)
          next noMinute =>
            have others (provided : ∀ tpm shared, providerLimit route options = some (tpm, shared) →
                ¬ tpm * fullTokenBudgetWindows < reservationFor route job options) :
                ¬ PermanentlyRefused route ledger job now options := by
              intro refused
              cases refused with
              | paused paused => exact notPaused paused
              | size refusal noProbe same => exact sized (by simp [size, inputRatio, noProbe, same])
              | promptCap noProbe cap above => exact uncapped ⟨by simp [noProbe], cap, above⟩
              | dailyTokens limited above => exact noDaily ⟨limited, above⟩
              | inputMinute gemini limited above => exact noMinute ⟨gemini, limited, above⟩
              | provider tpm shared limit above => exact provided tpm shared limit above
            split
            next unlimited =>
              refine iff_of_false (by simp) (others fun tpm shared limit => ?_)
              rw [unlimited] at limit
              cases limit
            next tpm shared limit =>
              split
              next above => exact iff_of_true rfl (.provider tpm shared limit above)
              next within =>
                refine iff_of_false (by simp) (others fun other held same => ?_)
                rw [limit] at same
                cases same
                exact within

theorem earliestSafeStart_first (stored : StoredBy ledger options now) (wholeNow : WholeMs now)
    {safe : SafeStart}
    (answered : earliestSafeStart calendar route ledger job candidate now options = .ok safe) :
    First WholeMs (LimitsHold calendar route ledger job now options) (max candidate now)
      safe.notBeforeAt := by
  unfold earliestSafeStart at answered
  split at answered
  next => cases answered
  next accepted =>
    cases answered
    have notRefused : ¬ PermanentlyRefused route ledger job now options := by
      rw [← permanentRefusal_isSome, accepted]
      simp
    have late : now ≤ max candidate now := le_max_right _ _
    have daily := dailyTokens_first route (reservationFor route job options) late wholeNow
      stored.dailyTokens fun limited => not_lt.mp fun above => notRefused (.dailyTokens limited above)
    have minute := daily.and (inputMinute_first route ledger
      (scaledInputTokens job.inputTokenEstimate (options.ratio route)))
    have requests := minute.and (fixedWindow_first ledger.rpmWindowStart ledger.rpmCount route.rpm
      (rpmWindowDurationMs route) (late.trans minute.le))
    have quota := requests.and (dailyQuota_first route ledger calendar
      (late.trans requests.le))
    have tokens := quota.and (routeTokens_first route
      (reservationFor route job options) (late.trans quota.le) wholeNow
      stored.tokenBudget)
    have provider := tokens.and (provider_first route
      (reservationFor route job options) (late.trans tokens.le) wholeNow
      stored.providerBudget
      fun tpm shared limit => not_lt.mp fun above => notRefused (.provider tpm shared limit above))
    have buffer := provider.and (buffer_first (late.trans provider.le) stored.buffer)
    refine (buffer.and (block_first ledger)).congr fun time _ => ?_
    constructor
    · rintro ⟨⟨⟨⟨⟨⟨⟨daily, minute⟩, requests⟩, quota⟩, tokens⟩, provider⟩, buffer⟩, block⟩
      exact ⟨daily, minute, requests, quota, tokens.1, tokens.2, provider, buffer, block⟩
    · intro hold
      exact ⟨⟨⟨⟨⟨⟨⟨hold.dailyTokens, hold.inputMinute⟩, hold.requestsPerMinute⟩, hold.requestsPerDay⟩,
        hold.tokenWindow, hold.tokenBucket⟩, hold.provider⟩, hold.buffer⟩, hold.block⟩

/-- The gate refuses exactly what no waiting admits. Otherwise it answers a start from
which every limit holds for good, and which no earlier millisecond could replace. -/
theorem earliestSafeStart_sound_and_least (calendar : Calendar) (route : CatalogRoute)
    (job : SizedJob) (candidate : ℚ) (stored : StoredBy ledger options now) (wholeNow : WholeMs now) :
    ((∃ refusal, earliestSafeStart calendar route ledger job candidate now options = .error refusal) ↔
        PermanentlyRefused route ledger job now options) ∧
      ∀ safe, earliestSafeStart calendar route ledger job candidate now options = .ok safe →
        max candidate now ≤ safe.notBeforeAt ∧
        (∀ start, safe.notBeforeAt ≤ start →
          LimitsHold calendar route ledger job now options start) ∧
        ∀ start, WholeMs start → max candidate now ≤ start → start < safe.notBeforeAt →
          ¬ LimitsHold calendar route ledger job now options start := by
  constructor
  · rw [← permanentRefusal_isSome]
    unfold earliestSafeStart
    cases permanentRefusal route ledger job now options with
    | none => simp
    | some refusal => simp
  · intro safe answered
    have first := earliestSafeStart_first stored wholeNow answered
    exact ⟨first.le, first.sound, first.least⟩

def fullMinuteRoute : CatalogRoute := { provider := "groq", rpm := some 30, tpm := some 6000 }

def fullMinuteLedger : RouteLedger :=
  { rpmWindowStart := 500, rpmCount := 30, tpmWindowStart := 500, fullTokenBudget := 6000,
    tokenBudgetUpdatedAt := 500 }

def epochDay : Calendar := ⟨fun _ _ => "1970-01-01"⟩

theorem fullMinuteLedger_stored : StoredBy fullMinuteLedger {} 1000 := by
  constructor
  case providerWindow => simp
  case providerBudget => simp
  all_goals norm_num [fullMinuteLedger]

theorem earliestSafeStart_full_minute :
    ∃ safe, earliestSafeStart epochDay fullMinuteRoute fullMinuteLedger ⟨100, 50⟩ 1000 1000 {} =
        .ok safe ∧ safe.notBeforeAt = 60500 ∧
      LimitsHold epochDay fullMinuteRoute fullMinuteLedger ⟨100, 50⟩ 1000 {} 60500 :=
  have answered : earliestSafeStart epochDay fullMinuteRoute fullMinuteLedger ⟨100, 50⟩ 1000 1000 {} =
      .ok ⟨60500, 150⟩ := by
    decide +kernel
  ⟨_, answered, rfl, ((earliestSafeStart_sound_and_least epochDay fullMinuteRoute ⟨100, 50⟩ 1000
    fullMinuteLedger_stored ⟨1000, by norm_num⟩).2 _ answered).2.1 60500 (le_refl _)⟩

end Gate

end CityPods.Dispatch
