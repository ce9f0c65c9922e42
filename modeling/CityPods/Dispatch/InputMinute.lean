import CityPods.Dispatch.TokenBucket
import CityPods.Foundation.SlidingWindow

/-! # The trailing minute of input over runs of claims

A Gemini route keeps its admitted input in a window that each claim prunes
relative to the start it schedules. Where no start prunes an entry that a later
claim can still meet, no trailing minute holds more input than the limit.
-/

namespace CityPods.Dispatch

open Foundation SlidingWindow

/-! ## One push -/

abbrev tokensAfter (after : ℚ) (entries : List InputEntry) : ℚ :=
  weightWhere InputEntry.tokens (fun entry => after < entry.atMs) entries

section

variable {entries : List InputEntry}

theorem tokensAfter_antitone (positive : ∀ entry ∈ entries, 0 < entry.tokens) {early late : ℚ}
    (later : early ≤ late) : tokensAfter late entries ≤ tokensAfter early entries :=
  weightWhere_mono (fun entry member => (positive entry member).le)
    fun _ _ after => later.trans_lt after

theorem inputMinutePush_fits {tpm windowTokens span : ℚ} (fits : windowTokens ≤ tpm)
    (positive : ∀ entry ∈ entries, 0 < entry.tokens) (start : ℚ) :
    tokensAfter (inputMinutePush tpm windowTokens span entries
        (entries.map InputEntry.tokens).sum start - span) entries + windowTokens ≤ tpm := by
  induction entries generalizing start with
  | nil => simpa [inputMinutePush] using fits
  | cons entry later induction =>
      unfold inputMinutePush
      split
      · next room =>
          have part : tokensAfter (start - span) (entry :: later) ≤
              ((entry :: later).map InputEntry.tokens).sum :=
            weightWhere_le_sum fun counted member => (positive counted member).le
          linarith
      · have rest : ((entry :: later).map InputEntry.tokens).sum - entry.tokens =
            (later.map InputEntry.tokens).sum := by
          simp
        rw [rest]
        -- the entry has left the window by the start it pushes to
        have pushed := (le_max_right start (entry.atMs + span)).trans
          (le_inputMinutePush tpm windowTokens span later (later.map InputEntry.tokens).sum _)
        have left : ¬ inputMinutePush tpm windowTokens span later
            (later.map InputEntry.tokens).sum (max start (entry.atMs + span)) - span <
              entry.atMs := by
          linarith
        rw [tokensAfter, weightWhere_cons, if_neg left, zero_add]
        exact induction (fun other member => positive other (List.mem_cons_of_mem entry member)) _

end

theorem inputWindow_positive {ledger : RouteLedger} {entry : InputEntry}
    (member : entry ∈ inputWindow ledger) : 0 < entry.tokens := by
  unfold inputWindow at member
  rw [List.mem_insertionSort] at member
  simpa using (List.mem_filter.mp member).2

theorem tokensAfter_recent {ledger : RouteLedger} {early late : ℚ} (later : early ≤ late) :
    tokensAfter late (inputWindow ledger) =
      tokensAfter late ((inputWindow ledger).filter fun entry => decide (early < entry.atMs)) := by
  unfold tokensAfter weightWhere
  rw [List.filter_filter]
  congr 2
  refine List.filter_congr fun other _ => ?_
  by_cases after : late < other.atMs
  · have recently : early < other.atMs := later.trans_lt after
    simp [after, recently]
  · simp [after]

def inputTokens (route : CatalogRoute) (entry : LaneJob) : ℚ :=
  min (scaledInputTokens entry.job.inputTokenEstimate (entry.options.ratio route))
    (limitOf route.tpm)

section

variable {calendar : Calendar} {route : CatalogRoute}

theorem inputTokens_nonneg (limited : 0 < limitOf route.tpm) (entry : LaneJob) :
    0 ≤ inputTokens route entry := by
  refine le_min ?_ limited.le
  unfold scaledInputTokens
  have ratio : (0 : ℚ) ≤ if 0 < entry.options.ratio route then entry.options.ratio route else 1 := by
    split
    · next positive => exact positive.le
    · exact zero_le_one
  exact_mod_cast Int.ceil_nonneg (mul_nonneg (le_max_left _ _) ratio)

theorem inputTokens_le_reservation (gemini : isGemini route = true) (entry : LaneJob) :
    inputTokens route entry ≤ reservationFor route entry.job entry.options := by
  unfold reservationFor inputTokens
  dsimp only
  rw [if_pos gemini, add_zero]
  exact (min_le_left _ _).trans (le_max_left _ _)

/-- A scheduled job fits the trailing minute that ends with its start. -/
theorem Schedule.waitOf_fits (gemini : isGemini route = true) (limited : 0 < limitOf route.tpm)
    {schedule : Schedule} {window : ClaimWindow} {entry : LaneJob} {wait : LaneWait}
    (waited : schedule.waitOf calendar route window entry = some wait) :
    tokensAfter (wait.notBeforeAt - tpmWindowSpanMs route) (inputWindow schedule.ledger) +
      inputTokens route entry ≤ limitOf route.tpm := by
  set start := pushDailyTokens route schedule.ledger (reservationFor route entry.job entry.options)
    window.now (max schedule.laneTime window.now) with start_eq
  set recent := (inputWindow schedule.ledger).filter
    fun entry => decide (start - tpmWindowSpanMs route < entry.atMs) with recent_eq
  set pushed := inputMinutePush (limitOf route.tpm) (inputTokens route entry)
    (tpmWindowSpanMs route) recent (recent.map InputEntry.tokens).sum start with pushed_eq
  have reached : pushed ≤ wait.notBeforeAt := by
    have input : pushInputMinute route schedule.ledger
        (scaledInputTokens entry.job.inputTokenEstimate (entry.options.ratio route)) start =
          pushed := by
      unfold pushInputMinute
      rw [if_pos ⟨gemini, limited⟩]
      rfl
    have candidate : pushed ≤ bucketCandidate calendar route schedule.ledger entry.job
        schedule.laneTime window.now entry.options := by
      rw [← input]
      unfold bucketCandidate
      exact (le_max_left _ _).trans ((le_max_left _ _).trans (le_pushTokenWindow _ _ _ _ _ _ _))
    exact candidate.trans ((le_pushTokenBucket _ _ _ _ _).trans
      (le_bucketStart limited (Schedule.waitOf_eq_some waited)).2)
  have early : start ≤ pushed := le_inputMinutePush _ _ _ _ _ _
  have same : tokensAfter (pushed - tpmWindowSpanMs route) (inputWindow schedule.ledger) =
      tokensAfter (pushed - tpmWindowSpanMs route) recent := by
    rw [recent_eq]
    exact tokensAfter_recent (sub_le_sub_right early _)
  calc tokensAfter (wait.notBeforeAt - tpmWindowSpanMs route) (inputWindow schedule.ledger) +
        inputTokens route entry
      ≤ tokensAfter (pushed - tpmWindowSpanMs route) (inputWindow schedule.ledger) +
          inputTokens route entry := by
        gcongr
        exact tokensAfter_antitone (fun _ member => inputWindow_positive member) (by linarith)
    _ ≤ limitOf route.tpm := by
        rw [same]
        exact inputMinutePush_fits (min_le_right _ _)
          (fun entry member => inputWindow_positive (List.mem_filter.mp member).1) start

end

/-! ## The window and what was admitted -/

/-- The entry that a claim leaves in the window for a job. -/
def Admission.inputEntry (admission : Admission) : InputEntry where
  atMs := admission.notBeforeAt
  tokens := admission.reservation
  leaseToken := some admission.entry.leaseToken
  scheduledAt := some admission.notBeforeAt

section

variable {calendar : Calendar} {route : CatalogRoute}

theorem applyProvisionalReservation_inputWindow (gemini : isGemini route = true)
    (ledger : RouteLedger) (reservation notBeforeAt : ℚ) (leaseToken : Option String) :
    (applyProvisionalReservation calendar route ledger reservation notBeforeAt
        leaseToken).inputWindow =
      (inputWindow ledger).filter
          (fun entry => decide (notBeforeAt - tpmWindowSpanMs route < entry.atMs)) ++
        [{ atMs := notBeforeAt, tokens := reservation, leaseToken := leaseToken,
           scheduledAt := leaseToken.map fun _ => notBeforeAt }] := by
  have counted : (countDay calendar route (countMinute route ledger notBeforeAt)
      notBeforeAt).inputWindow = ledger.inputWindow := by
    unfold countDay countMinute
    dsimp only
    split <;> split <;> rfl
  have windowed (row : RouteLedger) :
      (reserveWindow route row reservation notBeforeAt).inputWindow = row.inputWindow := by
    unfold reserveWindow
    dsimp only
    split
    · split <;> rfl
    · rfl
  have budgeted (row : RouteLedger) :
      (reserveBudget route row reservation notBeforeAt).inputWindow = row.inputWindow := by
    unfold reserveBudget
    dsimp only
    split <;> rfl
  have read : inputWindow (reserveDailyTokens route (reserveBudget route (reserveWindow route
      (countDay calendar route (countMinute route ledger notBeforeAt) notBeforeAt) reservation
        notBeforeAt) reservation notBeforeAt) reservation notBeforeAt) = inputWindow ledger := by
    unfold inputWindow
    show (List.filter _ (reserveBudget _ _ _ _).inputWindow).insertionSort _ = _
    rw [budgeted, windowed, counted]
  show (reserveInput route (reserveDailyTokens route (reserveBudget route (reserveWindow route
    (countDay calendar route (countMinute route ledger notBeforeAt) notBeforeAt) reservation
      notBeforeAt) reservation notBeforeAt) reservation notBeforeAt) reservation notBeforeAt
        leaseToken).inputWindow = _
  unfold reserveInput
  rw [if_pos gemini, read]

structure InputCovered (route : CatalogRoute) (schedule : Schedule) : Prop where
  window : (inputWindow schedule.ledger).Perm
    (((remembered (tpmWindowSpanMs route) Admission.notBeforeAt schedule.admitted).map
      Admission.inputEntry).filter fun entry => decide (0 < entry.tokens))
  charged : ∀ admission ∈ schedule.admitted,
    inputTokens route admission.entry ≤ admission.reservation
  keeps : KeepsAfter (tpmWindowSpanMs route) Admission.notBeforeAt
    (schedule.laneTime - tpmWindowSpanMs route) schedule.admitted
  within : ∀ finish, windowWeight (tpmWindowSpanMs route) Admission.notBeforeAt
    (fun admission => inputTokens route admission.entry) finish schedule.admitted ≤
      limitOf route.tpm

/-- No start is a full window after an earlier admitted one that is within a window
of the claim. -/
def KeepsRecent (route : CatalogRoute) (schedule : Schedule) (window : ClaimWindow) : Prop :=
  schedule.admitted.Pairwise fun earlier later =>
    window.now - tpmWindowSpanMs route < earlier.notBeforeAt →
      later.notBeforeAt < earlier.notBeforeAt + tpmWindowSpanMs route

def inputRegime (route : CatalogRoute) : Regime where
  opens := KeepsRecent route
  changes before after := after.inputWindow = before.inputWindow

theorem tokensAfter_inputEntries {admitted : List Admission} (low : ℚ)
    (nonneg : ∀ admission ∈ admitted, 0 ≤ admission.reservation) :
    tokensAfter low ((admitted.map Admission.inputEntry).filter
        fun entry => decide (0 < entry.tokens)) =
      weightWhere Admission.reservation (fun admission => low < admission.notBeforeAt) admitted := by
  induction admitted with
  | nil => rfl
  | cons admission rest induction =>
      have own := nonneg admission (by simp)
      have others := induction fun other member => nonneg other (by simp [member])
      rw [weightWhere_cons, ← others, List.map_cons]
      by_cases used : 0 < admission.reservation
      · have kept : decide (0 < admission.inputEntry.tokens) = true := decide_eq_true used
        rw [List.filter_cons, if_pos kept, tokensAfter, weightWhere_cons]
        rfl
      · have dropped : ¬ decide (0 < admission.inputEntry.tokens) = true := fun kept =>
          used (of_decide_eq_true kept)
        rw [List.filter_cons, if_neg dropped, le_antisymm (not_lt.mp used) own, ite_self, zero_add]

theorem InputCovered.counted {schedule : Schedule} (limited : 0 < limitOf route.tpm)
    (covered : InputCovered route schedule) {low : ℚ}
    (late : schedule.laneTime - tpmWindowSpanMs route ≤ low) :
    weightWhere (fun admission => inputTokens route admission.entry)
        (fun admission => low < admission.notBeforeAt) schedule.admitted ≤
      tokensAfter low (inputWindow schedule.ledger) := by
  set kept := remembered (tpmWindowSpanMs route) Admission.notBeforeAt schedule.admitted
  have charged : ∀ admission ∈ kept, inputTokens route admission.entry ≤ admission.reservation :=
    fun admission member => covered.charged admission (remembered_subset member)
  have all : weightWhere (fun admission => inputTokens route admission.entry)
      (fun admission => low < admission.notBeforeAt) schedule.admitted =
        weightWhere (fun admission => inputTokens route admission.entry)
          (fun admission => low < admission.notBeforeAt) kept := by
    unfold weightWhere
    rw [remembered_after covered.keeps fun admission after => lt_of_le_of_lt late after]
  rw [all, tokensAfter, weightWhere_perm covered.window]
  exact (weightWhere_le_weightWhere charged).trans_eq (tokensAfter_inputEntries low fun admission
    member => (inputTokens_nonneg limited admission.entry).trans (charged admission member)).symm

theorem InputCovered.start (limited : 0 < limitOf route.tpm) {ledger : RouteLedger}
    (empty : ledger.inputWindow = []) (opened : ℚ) : InputCovered route ⟨ledger, opened, []⟩ where
  window := by
    unfold inputWindow
    rw [empty]
    exact List.Perm.refl _
  charged := fun _ member => absurd member List.not_mem_nil
  keeps := List.Pairwise.nil
  within := fun _ => limited.le

theorem InputCovered.charge (gemini : isGemini route = true) (limited : 0 < limitOf route.tpm)
    {schedule : Schedule} {window : ClaimWindow} {entry : LaneJob} {wait : LaneWait}
    (covered : InputCovered route schedule)
    (waited : schedule.waitOf calendar route window entry = some wait) :
    InputCovered route (schedule.charge calendar route entry wait) := by
  have safe := Schedule.waitOf_eq_some waited
  have reserved := (le_bucketStart limited safe).1
  have reached := (le_computeRouteLaneWait safe).1
  have spaced : wait.notBeforeAt ≤ wait.notBeforeAt + wait.minInterRequestGapMs :=
    le_add_of_nonneg_right ((computeRouteLaneWait_gap safe).symm ▸ minInterRequestGapMs_nonneg route)
  constructor
  · show (inputWindow (applyProvisionalReservation calendar route schedule.ledger wait.reservation
      wait.notBeforeAt (some entry.leaseToken))).Perm _
    unfold inputWindow
    rw [applyProvisionalReservation_inputWindow gemini]
    refine (List.perm_insertionSort _ _).trans ?_
    show List.Perm _ (((remembered (tpmWindowSpanMs route) Admission.notBeforeAt
      (schedule.admitted ++ [⟨entry, wait.notBeforeAt, wait.reservation⟩])).map
        Admission.inputEntry).filter _)
    rw [remembered_snoc, List.map_append, List.filter_append, List.filter_append]
    refine List.Perm.append ?_ (List.Perm.refl _)
    refine ((covered.window.filter _).filter _).trans (List.Perm.of_eq ?_)
    rw [List.filter_map, List.filter_map, List.filter_map, List.filter_map, List.filter_filter,
      List.filter_filter, List.filter_filter]
    congr 1
    refine List.filter_congr fun admission _ => ?_
    by_cases used : 0 < admission.reservation <;>
      by_cases recent : wait.notBeforeAt - tpmWindowSpanMs route < admission.notBeforeAt <;>
        simp [Admission.inputEntry, used, recent]
  · intro admission member
    rcases List.mem_append.mp member with earlier | own
    · exact covered.charged admission earlier
    · rw [List.mem_singleton.mp own]
      exact (inputTokens_le_reservation gemini entry).trans_eq reserved.symm
  · exact (covered.keeps.snoc ⟨entry, wait.notBeforeAt, wait.reservation⟩
      (sub_le_sub_right reached _)).mono (sub_le_sub_right spaced _)
  · have counted := @InputCovered.counted route schedule limited covered
      (wait.notBeforeAt - tpmWindowSpanMs route) (sub_le_sub_right reached _)
    have fits := Schedule.waitOf_fits gemini limited waited
    have total : weightWhere (fun admission => inputTokens route admission.entry)
        (fun admission => wait.notBeforeAt - tpmWindowSpanMs route < admission.notBeforeAt)
          schedule.admitted + inputTokens route entry ≤ limitOf route.tpm := by
      linarith
    exact @windowWeight_snoc_le Admission ℚ ℚ _ _ _ _ _ _ (tpmWindowSpanMs route)
      Admission.notBeforeAt (fun admission => inputTokens route admission.entry)
      (limitOf route.tpm) schedule.admitted (fun admission => inputTokens_nonneg limited
        admission.entry) covered.within ⟨entry, wait.notBeforeAt, wait.reservation⟩ total

/-- In every run whose claims do not meet a start that pruned a recent one, no trailing
minute holds more input than the limit. -/
theorem input_minute_within (gemini : isGemini route = true) (limited : 0 < limitOf route.tpm)
    {start : RouteLedger} {opened : ℚ} (empty : start.inputWindow = []) {schedule : Schedule}
    {clock : ℚ} (run : ScheduleRun calendar route (inputRegime route) start opened schedule clock)
    (time : ℚ) :
    windowWeight (tpmWindowSpanMs route) Admission.notBeforeAt
      (fun admission => inputTokens route admission.entry) time schedule.admitted ≤
        limitOf route.tpm := by
  have covered : InputCovered route schedule := by
    refine @ScheduleRun.invariant calendar route (inputRegime route)
      (fun schedule _ => InputCovered route schedule) start opened ?_ ?_ ?_ ?_ schedule clock run
    · exact InputCovered.start limited empty opened
    · intro schedule clock window covered later opens
      refine ⟨covered.window, covered.charged, ?_, covered.within⟩
      exact opens
    · intro schedule window entry wait covered waited _
      exact covered.charge gemini limited waited
    · rintro schedule clock ledger ⟨window, charged, keeps, within⟩ changes
      refine ⟨?_, charged, keeps, within⟩
      have same : ledger.inputWindow = schedule.ledger.inputWindow := changes
      show (inputWindow ledger).Perm _
      unfold inputWindow
      rw [same]
      exact window
  exact covered.within time

end

/-! ## A start that prunes too early -/

/-- A route of a thousand input tokens a minute. -/
def thousandRoute : CatalogRoute where
  provider := "gemini"
  tpm := some 1000

def tenThousandLeft : RouteLedger where
  fullTokenBudget := 10000
  tokenBudgetUpdatedAt := noonWindow.now

/-- A window of 25 seconds, `seconds` after noon, with 20 seconds for a call. -/
def afterNoon (seconds : ℚ) : ClaimWindow where
  now := noonWindow.now + seconds * 1000
  windowSeconds := 25
  callDurationCeilingMs := 20000

theorem oneAtNoon (regime : Regime)
    (opens : regime.opens ⟨tenThousandLeft, noonWindow.now, []⟩ noonWindow)
    (admits : regime.admits ⟨tenThousandLeft, noonWindow.now, []⟩ noonWindow (inputJob "a" 1000)) :
    ScheduleRun utcCalendar thousandRoute regime tenThousandLeft noonWindow.now
      (Schedule.claim utcCalendar thousandRoute noonWindow [inputJob "a" 1000]
        ⟨tenThousandLeft, noonWindow.now, []⟩) noonWindow.now :=
  .claim .start noonWindow [inputJob "a" 1000] (by decide) (le_refl _) opens
    ⟨fun _ => admits, trivial⟩

def pushedAt56 : Schedule :=
  Schedule.claim utcCalendar thousandRoute (afterNoon 56) [inputJob "b" 500]
    (Schedule.claim utcCalendar thousandRoute noonWindow [inputJob "a" 1000]
      ⟨tenThousandLeft, noonWindow.now, []⟩)

/-- The minute of the pushed job holds it alone. -/
theorem input_minute_within_pushed :
    windowWeight (tpmWindowSpanMs thousandRoute) Admission.notBeforeAt
      (fun admission => inputTokens thousandRoute admission.entry) (noonWindow.now + 60000)
        pushedAt56.admitted ≤ limitOf thousandRoute.tpm :=
  @input_minute_within utcCalendar thousandRoute (by decide) (by decide)
    tenThousandLeft noonWindow.now rfl _ _
    (.claim (oneAtNoon (inputRegime thousandRoute) List.Pairwise.nil trivial) (afterNoon 56)
      [inputJob "b" 500] (by decide) (by decide +kernel)
      (by
        have one : (Schedule.claim utcCalendar thousandRoute noonWindow [inputJob "a" 1000]
            ⟨tenThousandLeft, noonWindow.now, []⟩).admitted.length = 1 := by decide +kernel
        obtain ⟨first, alone⟩ := List.length_eq_one_iff.mp one
        show List.Pairwise _ _
        rw [alone]
        exact List.pairwise_singleton _ _)
      ⟨fun _ => trivial, trivial⟩)
    (noonWindow.now + 60000)

/-- A claim at 56 seconds pushes its job to the full minute, which prunes the job at
noon; a claim a second later starts its own at once, three seconds early. -/
theorem pruned_minute_overdrawn :
    isGemini thousandRoute = true ∧ 0 < limitOf thousandRoute.tpm ∧
      tenThousandLeft.inputWindow = [] ∧
        ∃ schedule clock,
          ScheduleRun utcCalendar thousandRoute {} tenThousandLeft noonWindow.now schedule clock ∧
            ¬ windowWeight (tpmWindowSpanMs thousandRoute) Admission.notBeforeAt
              (fun admission => inputTokens thousandRoute admission.entry)
                (noonWindow.now + 57000) schedule.admitted ≤ limitOf thousandRoute.tpm := by
  have pushed := (oneAtNoon {} trivial trivial).claim (afterNoon 56) [inputJob "b" 500]
    (by decide) (by decide +kernel) trivial ⟨fun _ => trivial, trivial⟩
  refine ⟨by decide, by decide, rfl, _, _, pushed.claim (afterNoon 57)
    [inputJob "c" 500] (by decide) (by decide +kernel) trivial ⟨fun _ => trivial, trivial⟩, ?_⟩
  decide +kernel

end CityPods.Dispatch
