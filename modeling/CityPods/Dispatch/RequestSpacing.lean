import CityPods.Dispatch.InputMinute

/-! # Requests per minute over runs of claims

The lane of one claim spaces its starts by the gap of the route. Where every claim
opens a gap after the starts before it, no minute holds more than the limit.
-/

namespace CityPods.Dispatch

open Foundation SlidingWindow

section

variable {calendar : Calendar} {route : CatalogRoute}

theorem msPerMinute_le_gaps {limit : Nat} (rpm : route.rpm = some (limit : ℚ)) (positive : 0 < limit) :
    msPerMinute ≤ limit • minInterRequestGapMs route := by
  have requests : (0 : ℚ) < limit := by exact_mod_cast positive
  have gap : msPerMinute / limit ≤ minInterRequestGapMs route := by
    have margin : 0 ≤ requestStartMarginMs route := marginMs_nonneg _
    have ceiled : msPerMinute / limit ≤ ⌈msPerMinute / (limit : ℚ)⌉ := Int.le_ceil _
    unfold minInterRequestGapMs
    rw [rpm]
    show _ ≤ if (limit : ℚ) ≤ 0 then _ else ⌈msPerMinute / (limit : ℚ)⌉ + requestStartMarginMs route
    rw [if_neg (not_le.mpr requests)]
    linarith
  rw [nsmul_eq_mul]
  calc msPerMinute = limit * (msPerMinute / limit) := by field_simp
    _ ≤ limit * minInterRequestGapMs route := by gcongr

/-- A claim opens its lane a gap after every start that is scheduled already. -/
def OpensSpaced (route : CatalogRoute) (schedule : Schedule) (window : ClaimWindow) : Prop :=
  ∀ admission ∈ schedule.admitted, admission.notBeforeAt + minInterRequestGapMs route ≤ window.now

/-- Whatever else happens to the ledger, spacing does not depend on it. -/
def spacingRegime (route : CatalogRoute) : Regime where
  opens := OpensSpaced route
  changes _ _ := True

/-- The starts of a route are spaced, and its lane is past all of them. -/
structure Spaced (route : CatalogRoute) (schedule : Schedule) : Prop where
  apart : schedule.admitted.Pairwise fun earlier later =>
    earlier.notBeforeAt + minInterRequestGapMs route ≤ later.notBeforeAt
  passed : ∀ admission ∈ schedule.admitted,
    admission.notBeforeAt + minInterRequestGapMs route ≤ schedule.laneTime

theorem Spaced.charge {schedule : Schedule} {window : ClaimWindow} {entry : LaneJob}
    {wait : LaneWait} (spaced : Spaced route schedule)
    (waited : schedule.waitOf calendar route window entry = some wait) :
    Spaced route (schedule.charge calendar route entry wait) := by
  have safe := Schedule.waitOf_eq_some waited
  have reached := (le_computeRouteLaneWait safe).1
  have gap := computeRouteLaneWait_gap safe
  have advanced : (schedule.charge calendar route entry wait).laneTime =
      wait.notBeforeAt + minInterRequestGapMs route := by
    show wait.notBeforeAt + wait.minInterRequestGapMs = _
    rw [gap]
  constructor
  · refine List.pairwise_append.mpr ⟨spaced.apart, List.pairwise_singleton _ _, ?_⟩
    intro earlier member last own
    rw [List.mem_singleton.mp own]
    exact (spaced.passed earlier member).trans reached
  · intro admission member
    rw [advanced]
    have nonneg := minInterRequestGapMs_nonneg route
    rcases List.mem_append.mp member with earlier | own
    · have before := spaced.passed admission earlier
      linarith
    · rw [List.mem_singleton.mp own]

/-- In every run whose claims open a gap after the starts before them, no minute holds
more starts than the limit, however the counter's window is aligned. -/
theorem requests_per_minute_le {limit : Nat} (rpm : route.rpm = some (limit : ℚ))
    (positive : 0 < limit) {start : RouteLedger} {opened : ℚ} {schedule : Schedule} {clock : ℚ}
    (run : ScheduleRun calendar route (spacingRegime route) start opened schedule clock)
    (opening : ℚ) :
    (schedule.admitted.filter fun admission =>
      decide (opening ≤ admission.notBeforeAt ∧ admission.notBeforeAt < opening + msPerMinute)).length ≤
        limit := by
  have spaced : Spaced route schedule := by
    refine @ScheduleRun.invariant calendar route (spacingRegime route)
      (fun schedule _ => Spaced route schedule) start opened ?_ ?_ ?_ ?_ schedule clock run
    · exact ⟨List.Pairwise.nil, fun _ member => absurd member List.not_mem_nil⟩
    · intro schedule clock window spaced later opens
      exact ⟨spaced.apart, opens⟩
    · intro schedule window entry wait spaced waited _
      exact spaced.charge waited
    · intro schedule clock ledger spaced _
      exact ⟨spaced.apart, spaced.passed⟩
  refine length_le_of_spaced Admission.notBeforeAt limit opening (spaced.apart.filter _) ?_
  intro admission member
  obtain ⟨above, below⟩ := of_decide_eq_true (List.mem_filter.mp member).2
  have minute := msPerMinute_le_gaps rpm positive
  exact ⟨above, below.trans_le (by linarith)⟩

end

def twicePerMinuteRoute : CatalogRoute where
  provider := "groq"
  rpm := some 2

/-- Claim one job `seconds` after noon. -/
def claimOne (leaseToken : String) (seconds : ℚ) (schedule : Schedule) : Schedule :=
  schedule.claim utcCalendar twicePerMinuteRoute (afterNoon seconds) [inputJob leaseToken 100]

theorem ScheduleRun.claimOne {regime : Regime} {schedule : Schedule} {clock : ℚ}
    (run : ScheduleRun utcCalendar twicePerMinuteRoute regime {} 0 schedule clock)
    (leaseToken : String) (seconds : ℚ) (later : clock ≤ (afterNoon seconds).now)
    (opens : regime.opens schedule (afterNoon seconds))
    (admits : ∀ schedule entry, regime.admits schedule (afterNoon seconds) entry) :
    ScheduleRun utcCalendar twicePerMinuteRoute regime {} 0
      (Dispatch.claimOne leaseToken seconds schedule) (afterNoon seconds).now :=
  run.claim (afterNoon seconds) [inputJob leaseToken 100] (by simp) later opens
    ⟨fun _ => admits _ _, trivial⟩

/-- Two claims half a minute apart. -/
theorem requests_per_minute_le_noon :
    ((claimOne "b" 30 (claimOne "a" 0 ⟨{}, 0, []⟩)).admitted.filter fun admission =>
      decide (noonWindow.now ≤ admission.notBeforeAt ∧
        admission.notBeforeAt < noonWindow.now + msPerMinute)).length ≤ 2 :=
  @requests_per_minute_le utcCalendar twicePerMinuteRoute 2 rfl (by decide) {} 0 _ _
    ((ScheduleRun.start.claimOne "a" 0 (by decide +kernel)
      (by simp [spacingRegime, OpensSpaced]) (fun _ _ => trivial)).claimOne "b" 30
        (by decide +kernel) (by
          show ∀ admission ∈ _, _ ≤ _
          decide +kernel) (fun _ _ => trivial))
    noonWindow.now

/-- A request before the end of the counter's minute and two after it: the sixty seconds from
the second request hold three. -/
theorem minute_over_limit :
    twicePerMinuteRoute.rpm = some ((2 : Nat) : ℚ) ∧
      ∃ schedule clock opening,
        ScheduleRun utcCalendar twicePerMinuteRoute {} {} 0 schedule clock ∧
          ¬ (schedule.admitted.filter fun admission =>
            decide (opening ≤ admission.notBeforeAt ∧
              admission.notBeforeAt < opening + msPerMinute)).length ≤ 2 := by
  have first : ScheduleRun utcCalendar twicePerMinuteRoute {} {} 0 _ _ :=
    ScheduleRun.start.claimOne "a" 0 (by decide +kernel) trivial (fun _ _ => trivial)
  have second := first.claimOne "b" 1 (by decide +kernel) trivial (fun _ _ => trivial)
  have third := second.claimOne "c" 60 (by decide +kernel) trivial (fun _ _ => trivial)
  refine ⟨rfl, _, _, (afterNoon 1).now,
    third.claimOne "d" (121 / 2) (by decide +kernel) trivial (fun _ _ => trivial), ?_⟩
  decide +kernel

end CityPods.Dispatch
