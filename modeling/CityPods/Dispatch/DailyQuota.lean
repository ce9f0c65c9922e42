import CityPods.Dispatch.Reservation

/-! # The daily request quota

A route's counter holds one calendar day. A claim tests it on the day of the
claim and charges it on the day of the scheduled start.
-/

namespace CityPods.Dispatch

/-! ## Calendar days -/

structure Calendar.HasDays (calendar : Calendar) (timeZone : String) : Prop where
  contiguous : ∀ first between last : ℚ, first ≤ between → between ≤ last →
    calendar.zonedDateKey timeZone first = calendar.zonedDateKey timeZone last →
      calendar.zonedDateKey timeZone between = calendar.zonedDateKey timeZone first
  bounded : ∀ ms : ℚ, calendar.zonedDateKey timeZone (ms + 26 * msPerHour) ≠
    calendar.zonedDateKey timeZone ms

theorem narrowMidnight_spec (sameDay : ℚ → Bool) (steps : Nat) {lo hi : ℚ} (ordered : lo ≤ hi)
    (crossed : sameDay hi = false) :
    sameDay (narrowMidnight sameDay steps lo hi) = false ∧
      lo ≤ narrowMidnight sameDay steps lo hi := by
  induction steps generalizing lo hi with
  | zero => exact ⟨crossed, ordered⟩
  | succ steps induction =>
      unfold narrowMidnight
      split
      · exact ⟨crossed, ordered⟩
      · have half : (0 : ℚ) ≤ ⌊(hi - lo) / 2⌋ := by
          have nonneg : 0 ≤ (hi - lo) / 2 := by linarith
          exact_mod_cast Int.floor_nonneg.mpr nonneg
        have below : (⌊(hi - lo) / 2⌋ : ℚ) ≤ (hi - lo) / 2 := Int.floor_le _
        dsimp only
        split
        · next same =>
            have inner : lo + ⌊(hi - lo) / 2⌋ ≤ hi := by linarith
            have rest := induction inner crossed
            exact ⟨rest.1, by linarith [rest.2]⟩
        · next different =>
            exact induction (by linarith) (by simpa using different)

/-- The next midnight is a later instant of another day. -/
theorem probeMidnight_spec (sameDay : ℚ → Bool) (now : ℚ) (hours : List ℚ)
    (positive : ∀ hour ∈ hours, 1 ≤ hour)
    (crosses : ∃ hour ∈ hours, sameDay (now + hour * msPerHour) = false) :
    sameDay (probeMidnight sameDay now hours) = false ∧
      now ≤ probeMidnight sameDay now hours := by
  have hourMs : (0 : ℚ) < msPerHour := by decide
  induction hours with
  | nil =>
      obtain ⟨hour, member, _⟩ := crosses
      cases member
  | cons head later induction =>
      unfold probeMidnight
      split
      · next same =>
          obtain ⟨hour, member, crossed⟩ := crosses
          refine induction (fun hour member => positive hour (List.mem_cons_of_mem _ member))
            ⟨hour, ?_, crossed⟩
          rcases List.mem_cons.mp member with equal | later
          · rw [equal, same] at crossed
            cases crossed
          · exact later
      · next crossed =>
          have atLeast : msPerHour ≤ head * msPerHour := by
            have one := positive head List.mem_cons_self
            nlinarith
          have bracket : now + head * msPerHour - msPerHour ≤ now + head * msPerHour := by linarith
          have narrowed := narrowMidnight_spec sameDay 6 bracket (by simpa using crossed)
          exact ⟨narrowed.1, by linarith [narrowed.2]⟩

theorem nextZonedMidnightMs_spec {calendar : Calendar} {timeZone : String}
    (days : calendar.HasDays timeZone) (now : ℚ) :
    calendar.zonedDateKey timeZone (nextZonedMidnightMs calendar timeZone now) ≠
        calendar.zonedDateKey timeZone now ∧
      now ≤ nextZonedMidnightMs calendar timeZone now := by
  have spec := probeMidnight_spec
    (fun ms => calendar.zonedDateKey timeZone ms = calendar.zonedDateKey timeZone now) now
    midnightProbes (by decide +kernel)
    ⟨26, by decide +kernel, by simpa using days.bounded now⟩
  exact ⟨of_decide_eq_false spec.1, spec.2⟩

/-! ## Runs of claims -/

/-- Every instant at which a job of this claim may start is on the day of the claim. -/
def ClaimWindow.StaysInDay (calendar : Calendar) (route : CatalogRoute) (window : ClaimWindow) :
    Prop :=
  ∀ start, window.now ≤ start →
    start + window.callDurationCeilingMs ≤ window.dispatchWindowEnd →
      calendar.routeDay route start = calendar.routeDay route window.now

/-- The leases of a run of claims on one route with non-decreasing clock. Between
the claims the ledger may change in any way that leaves its request counters. -/
inductive QuotaRun (calendar : Calendar) (route : CatalogRoute) (allowed : ClaimWindow → Prop) :
    RouteLedger → List LaneLease → (clock : ℚ) → Prop
  | start {ledger : RouteLedger} {clock : ℚ} (unused : ledger.rpdCount = 0)
      (undated : ledger.rpdDayKey = "") (idle : ledger.rpmCount = 0) :
      QuotaRun calendar route allowed ledger [] clock
  | claim {ledger : RouteLedger} {leases : List LaneLease} {clock : ℚ} (window : ClaimWindow)
      (jobs : List LaneJob) (run : QuotaRun calendar route allowed ledger leases clock)
      (later : clock ≤ window.now) (claimable : allowed window) :
      QuotaRun calendar route allowed
        (claimLane calendar route window jobs window.now ledger).1
        (leases ++ (claimLane calendar route window jobs window.now ledger).2) window.now
  | other {ledger changed : RouteLedger} {leases : List LaneLease} {clock : ℚ}
      (run : QuotaRun calendar route allowed ledger leases clock)
      (same : changed.requestCounters = ledger.requestCounters) :
      QuotaRun calendar route allowed changed leases clock

def leasesOn (calendar : Calendar) (route : CatalogRoute) (day : String)
    (leases : List LaneLease) : Nat :=
  leases.countP fun lease => calendar.routeDay route lease.notBeforeAt = day

structure QuotaInvariant (calendar : Calendar) (route : CatalogRoute) (limit : Nat)
    (ledger : RouteLedger) (leases : List LaneLease) (clock : ℚ) : Prop where
  counted : ∃ count : Nat, ledger.rpdCount = count ∧ count ≤ limit ∧
    leasesOn calendar route ledger.rpdDayKey leases ≤ count
  within : ∀ day, leasesOn calendar route day leases ≤ limit
  dated : leases = [] ∨ ∃ last ≤ clock, ledger.rpdDayKey = calendar.routeDay route last ∧
    ∀ lease ∈ leases, ∃ claimed ≤ last,
      calendar.routeDay route lease.notBeforeAt = calendar.routeDay route claimed

section

variable {calendar : Calendar} {route : CatalogRoute} {limit : Nat}
  {ledger : RouteLedger} {leases : List LaneLease} {clock : ℚ}

theorem QuotaInvariant.advance {later : ℚ}
    (invariant : QuotaInvariant calendar route limit ledger leases clock)
    (forward : clock ≤ later) : QuotaInvariant calendar route limit ledger leases later where
  counted := invariant.counted
  within := invariant.within
  dated := invariant.dated.imp_right fun ⟨last, before, rest⟩ =>
    ⟨last, before.trans forward, rest⟩

theorem QuotaInvariant.unused (days : calendar.HasDays (routeResetTimezone route))
    (invariant : QuotaInvariant calendar route limit ledger leases clock)
    (different : ledger.rpdDayKey ≠ calendar.routeDay route clock) :
    leasesOn calendar route (calendar.routeDay route clock) leases = 0 := by
  rcases invariant.dated with empty | ⟨last, before, held, dated⟩
  · rw [empty]
    rfl
  · refine List.countP_eq_zero.mpr fun lease member => ?_
    obtain ⟨claimed, earlier, day⟩ := dated lease member
    intro onDay
    have sameDay : calendar.routeDay route claimed = calendar.routeDay route clock := by
      rw [← day]
      simpa using onDay
    have between := days.contiguous claimed last clock earlier before sameDay
    exact different (held.trans (Eq.trans between sameDay))

theorem leasesOn_append (day : String) (leases : List LaneLease) (lease : LaneLease) :
    leasesOn calendar route day (leases ++ [lease]) = leasesOn calendar route day leases +
      if calendar.routeDay route lease.notBeforeAt = day then 1 else 0 := by
  simp [leasesOn, List.countP_append, List.countP_cons]

theorem QuotaInvariant.lease (days : calendar.HasDays (routeResetTimezone route))
    (positive : 0 < limit)
    (invariant : QuotaInvariant calendar route limit ledger leases clock) (lease : LaneLease)
    (reservation : ℚ) (leaseToken : Option String)
    (onDay : calendar.routeDay route lease.notBeforeAt = calendar.routeDay route clock)
    (headroom : ledger.rpdDayKey = calendar.routeDay route clock → ledger.rpdCount < limit) :
    QuotaInvariant calendar route limit
      (applyProvisionalReservation calendar route ledger reservation lease.notBeforeAt leaseToken)
      (leases ++ [lease]) clock := by
  have charged := applyProvisionalReservation_rpd calendar route ledger reservation
    lease.notBeforeAt leaseToken
  rw [onDay] at charged
  have onClock : ∃ count : Nat,
      (if ledger.rpdDayKey = calendar.routeDay route clock then ledger.rpdCount + 1 else 1) =
          (count : ℚ) ∧ count ≤ limit ∧
        leasesOn calendar route (calendar.routeDay route clock) leases + 1 ≤ count := by
    by_cases same : ledger.rpdDayKey = calendar.routeDay route clock
    · obtain ⟨count, stored, _, covers⟩ := invariant.counted
      have room : count < limit := by
        have below := headroom same
        rw [stored] at below
        exact_mod_cast below
      refine ⟨count + 1, ?_, room, ?_⟩
      · rw [if_pos same, stored]
        push_cast
        rfl
      · rw [same] at covers
        omega
    · refine ⟨1, ?_, positive, ?_⟩
      · rw [if_neg same]
        norm_num
      · rw [invariant.unused days same]
  obtain ⟨count, stored, within, covers⟩ := onClock
  constructor
  · refine ⟨count, charged.2.trans stored, within, ?_⟩
    rw [charged.1, leasesOn_append, if_pos onDay]
    exact covers
  · intro day
    rw [leasesOn_append]
    split
    · next sameDay =>
        rw [← sameDay, onDay]
        omega
    · exact invariant.within day
  · refine .inr ⟨clock, le_refl clock, charged.1, fun other member => ?_⟩
    rcases List.mem_append.mp member with old | new
    · rcases invariant.dated with empty | ⟨last, before, _, dated⟩
      · rw [empty] at old
        cases old
      · obtain ⟨claimed, earlier, day⟩ := dated other old
        exact ⟨claimed, earlier.trans before, day⟩
    · rw [List.mem_singleton.mp new]
      exact ⟨clock, le_refl clock, onDay⟩

/-- A full counter of the claim's own day pushes the start to another day. -/
theorem headroom_of_start (days : calendar.HasDays (routeResetTimezone route))
    (quota : route.rpd = some (limit : ℚ)) (positive : 0 < limit)
    {job : SizedJob} {laneTime now : ℚ} {options : PacingOptions} {wait : LaneWait}
    (waited : computeRouteLaneWait calendar route ledger job laneTime now options = .ok wait)
    (onDay : calendar.routeDay route wait.notBeforeAt = calendar.routeDay route now)
    (current : ledger.rpdDayKey = calendar.routeDay route now) : ledger.rpdCount < limit := by
  by_contra full
  have ready := (le_computeRouteLaneWait waited).2.2
  have positiveLimit : ¬ limitOf route.rpd ≤ 0 := by
    rw [quota]
    simpa [limitOf] using Nat.pos_iff_ne_zero.mp positive
  have exhausted : ¬ ledger.rpdCount < limitOf route.rpd := by
    rw [quota]
    exact full
  unfold dailyQuotaReadyAt at ready
  rw [if_neg positiveLimit, if_neg (not_not.mpr current), if_neg exhausted] at ready
  have midnight := nextZonedMidnightMs_spec days now
  exact midnight.1 (days.contiguous now _ wait.notBeforeAt midnight.2 ready onDay.symm)

theorem QuotaInvariant.claimLane (days : calendar.HasDays (routeResetTimezone route))
    (quota : route.rpd = some (limit : ℚ)) (positive : 0 < limit) {window : ClaimWindow}
    (stays : window.StaysInDay calendar route) (jobs : List LaneJob) (laneTime : ℚ)
    (invariant : QuotaInvariant calendar route limit ledger leases window.now) :
    QuotaInvariant calendar route limit (claimLane calendar route window jobs laneTime ledger).1
      (leases ++ (claimLane calendar route window jobs laneTime ledger).2) window.now := by
  induction jobs generalizing laneTime ledger leases with
  | nil => simpa [Dispatch.claimLane] using invariant
  | cons entry later induction =>
      unfold Dispatch.claimLane
      split
      · exact induction laneTime invariant
      · next wait waited =>
          split
          · exact induction laneTime invariant
          · next fits =>
              have onDay := stays wait.notBeforeAt (le_computeRouteLaneWait waited).2.1
                (not_lt.mp fits)
              have step := invariant.lease days positive
                (laneLease entry.leaseToken wait (applyProvisionalReservation calendar route
                  ledger wait.reservation wait.notBeforeAt (some entry.leaseToken)))
                wait.reservation (some entry.leaseToken) onDay
                (headroom_of_start days quota positive waited onDay)
              have rest := induction (wait.notBeforeAt + wait.minInterRequestGapMs) step
              rw [List.append_assoc] at rest
              exact rest

theorem QuotaRun.invariant (days : calendar.HasDays (routeResetTimezone route))
    (quota : route.rpd = some (limit : ℚ)) (positive : 0 < limit)
    (run : QuotaRun calendar route (ClaimWindow.StaysInDay calendar route) ledger leases clock) :
    QuotaInvariant calendar route limit ledger leases clock := by
  induction run with
  | start unused _ _ =>
      exact ⟨⟨0, by simpa using unused, Nat.zero_le _, Nat.le_refl 0⟩,
        fun _ => Nat.zero_le _, .inl rfl⟩
  | claim window jobs _ later claimable induction =>
      exact (induction.advance later).claimLane days quota positive claimable jobs window.now
  | other _ same induction =>
      have key : _ = _ := congrArg RequestCounters.rpdDayKey same
      have count : _ = _ := congrArg RequestCounters.rpdCount same
      simp only [RouteLedger.requestCounters] at key count
      constructor
      · rw [key, count]
        exact induction.counted
      · exact induction.within
      · rw [key]
        exact induction.dated

/-- No day is over its limit in a run whose claims all schedule within their own
day. -/
theorem daily_requests_le (calendar : Calendar) (route : CatalogRoute) (limit : Nat)
    (days : calendar.HasDays (routeResetTimezone route))
    (quota : route.rpd = some (limit : ℚ)) (positive : 0 < limit) (ledger : RouteLedger)
    (leases : List LaneLease) (clock : ℚ)
    (run : QuotaRun calendar route (ClaimWindow.StaysInDay calendar route) ledger leases clock)
    (day : String) : leasesOn calendar route day leases ≤ limit :=
  (run.invariant days quota positive).within day

end

/-! ## Around midnight -/

/-- Dates of UTC days, spelled out around the turn of one day and otherwise only
told apart. -/
def utcDate (day : ℤ) : String :=
  if day = 20000 then "2024-10-04"
  else if day = 20001 then "2024-10-05"
  else String.ofList ((if 0 ≤ day then '+' else '-') :: List.replicate day.natAbs '1')

def utcCalendar : Calendar where
  zonedDateKey _ ms := utcDate ⌊ms / msPerDay⌋

theorem utcDate_injective : Function.Injective utcDate := by
  intro first second same
  have dated : ∀ day : ℤ, utcDate day = "2024-10-04" → day = 20000 := by
    intro day equal
    unfold utcDate at equal
    split at equal
    · assumption
    · split at equal
      · exact absurd equal (by decide)
      · have chars := congrArg String.toList equal
        split at chars <;> simp at chars
  have next : ∀ day : ℤ, utcDate day = "2024-10-05" → day = 20001 := by
    intro day equal
    unfold utcDate at equal
    split at equal
    · exact absurd equal (by decide)
    · split at equal
      · assumption
      · have chars := congrArg String.toList equal
        split at chars <;> simp at chars
  by_cases one : second = 20000
  · rw [one] at same ⊢
    exact dated first same
  by_cases two : second = 20001
  · rw [two] at same ⊢
    exact next first same
  by_cases three : first = 20000
  · rw [three] at same ⊢
    exact (dated second same.symm).symm
  by_cases four : first = 20001
  · rw [four] at same ⊢
    exact (next second same.symm).symm
  unfold utcDate at same
  rw [if_neg three, if_neg four, if_neg one, if_neg two] at same
  have chars := congrArg String.toList same
  simp only [String.toList_ofList, List.cons.injEq] at chars
  have magnitude : first.natAbs = second.natAbs := by
    simpa using congrArg List.length chars.2
  split at chars <;> split at chars
  · omega
  · exact absurd chars.1 (by decide)
  · exact absurd chars.1 (by decide)
  · omega

theorem utcCalendar_hasDays (timeZone : String) : utcCalendar.HasDays timeZone := by
  have day : (0 : ℚ) < msPerDay := by decide
  constructor
  · intro first between last before after same
    have equal : ⌊first / msPerDay⌋ = ⌊last / msPerDay⌋ := utcDate_injective same
    have low : ⌊first / msPerDay⌋ ≤ ⌊between / msPerDay⌋ :=
      Int.floor_le_floor (by gcongr)
    have high : ⌊between / msPerDay⌋ ≤ ⌊last / msPerDay⌋ :=
      Int.floor_le_floor (by gcongr)
    show utcDate _ = utcDate _
    congr 1
    omega
  · intro ms same
    have equal : ⌊(ms + 26 * msPerHour) / msPerDay⌋ = ⌊ms / msPerDay⌋ := utcDate_injective same
    have shifted : ms / msPerDay + 1 ≤ (ms + 26 * msPerHour) / msPerDay := by
      rw [div_add_one day.ne', div_le_div_iff_of_pos_right day]
      have hours : msPerDay ≤ 26 * msPerHour := by decide +kernel
      linarith
    have floors := Int.floor_le_floor shifted
    rw [Int.floor_add_one] at floors
    omega

/-- A route with two requests a day and one a second. -/
def twiceDailyRoute : CatalogRoute where
  provider := "groq"
  rpm := some 60
  rpd := some 2

def lateWindow : ClaimWindow where
  now := 1728086399000
  windowSeconds := 25
  callDurationCeilingMs := 20000

def smallJob (leaseToken : String) : LaneJob where
  job := ⟨100, 100⟩
  options := {}
  leaseToken := leaseToken

def fourJobs : List LaneJob := [smallJob "a", smallJob "b", smallJob "c", smallJob "d"]

theorem noPriorUse {allowed : ClaimWindow → Prop} :
    QuotaRun utcCalendar twiceDailyRoute allowed {} [] 0 := .start rfl rfl rfl

def noonWindow : ClaimWindow where
  now := 1728043200000
  windowSeconds := 25
  callDurationCeilingMs := 20000

theorem noonWindow_staysInDay : noonWindow.StaysInDay utcCalendar twiceDailyRoute := by
  intro start notBefore fits
  have day : (0 : ℚ) < msPerDay := by decide
  have ends : noonWindow.dispatchWindowEnd = 1728043225000 := by decide +kernel
  have call : noonWindow.callDurationCeilingMs = 20000 := rfl
  have noon : noonWindow.now = 1728043200000 := rfl
  rw [ends, call] at fits
  rw [noon] at notBefore
  have startDay : ⌊start / msPerDay⌋ = 20000 := by
    rw [Int.floor_eq_iff, le_div_iff₀ day, div_lt_iff₀ day]
    constructor <;> norm_num [msPerDay] <;> linarith
  have noonDay : ⌊noonWindow.now / msPerDay⌋ = 20000 := by decide +kernel
  show utcDate ⌊start / msPerDay⌋ = utcDate ⌊noonWindow.now / msPerDay⌋
  rw [startDay, noonDay]

/-- Four jobs claimed at noon, of which the quota takes two. -/
theorem daily_requests_le_noon :
    leasesOn utcCalendar twiceDailyRoute "2024-10-04"
        ([] ++ (claimLane utcCalendar twiceDailyRoute noonWindow fourJobs noonWindow.now {}).2) ≤
      2 :=
  daily_requests_le utcCalendar twiceDailyRoute 2 (utcCalendar_hasDays _) rfl (by decide) _ _ _
    (.claim noonWindow fourJobs noPriorUse
      (by decide) noonWindow_staysInDay) "2024-10-04"

/-- One claim of four jobs starts one of them before midnight and three after it,
on a route with two requests a day. -/
theorem day_over_quota :
    utcCalendar.HasDays (routeResetTimezone twiceDailyRoute) ∧
      twiceDailyRoute.rpd = some ((2 : Nat) : ℚ) ∧
        ∃ ledger leases clock,
          QuotaRun utcCalendar twiceDailyRoute (fun _ => True) ledger leases clock ∧
            leasesOn utcCalendar twiceDailyRoute "2024-10-05" leases = 3 := by
  refine ⟨utcCalendar_hasDays _, rfl, _, _, _,
    .claim lateWindow fourJobs noPriorUse ?_ trivial, ?_⟩
  · decide
  · decide +kernel

end CityPods.Dispatch
