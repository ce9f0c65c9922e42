import CityPods.Dispatch.Packing

/-! # What a packed job meets

A packet filled to the packing limit passes the size gate always, and the other
gates exactly when the tightest limit leaves room for it.
-/

namespace CityPods.Dispatch

/-! ## Quantiles -/

variable {low high : ℚ}

theorem percentile_mono (values : List ℚ) (lowHigh : low ≤ high) :
    (percentile values low).getD 0 ≤ (percentile values high).getD 0 := by
  have sorted := List.pairwise_iff_getElem.mp (List.pairwise_insertionSort (· ≤ ·) values)
  have indices : min (values.length - 1) (⌈low * values.length⌉ - 1).toNat ≤
      min (values.length - 1) (⌈high * values.length⌉ - 1).toNat := by
    have products : low * values.length ≤ high * values.length := by gcongr
    have ceilings := Int.ceil_mono products
    omega
  cases empty : values.length with
  | zero =>
      rw [List.length_eq_zero_iff] at empty
      simp [percentile, empty]
  | succ count =>
      have bound : min (values.length - 1) (⌈high * values.length⌉ - 1).toNat <
          (values.insertionSort (· ≤ ·)).length := by
        rw [List.length_insertionSort]
        omega
      simp only [percentile]
      rw [List.getElem?_eq_getElem (lt_of_le_of_lt indices bound), List.getElem?_eq_getElem bound]
      rcases indices.lt_or_eq with before | same
      · exact sorted _ _ _ _ before
      · simp only [same, Option.getD_some, le_refl]

theorem priorWeight_le_one (samples : Nat) : priorWeight samples ≤ 1 := by
  have share : (0 : ℚ) ≤ samples / calibrationFullSamples := by positivity
  rw [priorWeight]
  split
  · exact le_refl 1
  · exact max_le zero_le_one (by linarith)

theorem blend_mono {weight prior : ℚ} (weightBound : weight ≤ 1) (lowHigh : low ≤ high) :
    blend weight prior low ≤ blend weight prior high := by
  have rest : 0 ≤ 1 - weight := by linarith
  rw [blend, blend]
  gcongr

theorem blend_pos (weight prior learned : ℚ) : 0 < blend weight prior learned := by
  rw [blend]
  exact lt_min (by norm_num [maxRatio]) (lt_max_of_lt_left (by norm_num [minRatio]))

theorem routeInputTokenRatio_pos (route : CatalogRoute) : 0 < routeInputTokenRatio route := by
  rw [routeInputTokenRatio]
  split
  · split
    · linarith
    · exact zero_lt_one
  · exact zero_lt_one

/-! ## The three ratios -/

/-- What the gates use of a calibration: admission never scales an estimate by more
than packing or reservation do. -/
structure Calibration.Ordered (calibration : Calibration) : Prop where
  admit_pos : 0 < calibration.admitRatio
  admit_le_pack : calibration.admitRatio ≤ calibration.packRatio
  admit_le_input : calibration.admitRatio ≤ calibration.inputRatio

variable {calibration : Calibration}

theorem Calibration.Ordered.pack_pos (ordered : calibration.Ordered) :
    0 < calibration.packRatio :=
  lt_of_lt_of_le ordered.admit_pos ordered.admit_le_pack

theorem Calibration.Ordered.input_pos (ordered : calibration.Ordered) :
    0 < calibration.inputRatio :=
  lt_of_lt_of_le ordered.admit_pos ordered.admit_le_input

theorem calibrationFor_ordered (route : SizedRoute) (summary : CalibrationSummary) :
    (calibrationFor route summary).Ordered := by
  simp only [calibrationFor]
  split
  next enough =>
    have quantiles : (percentile summary.ratios (3 / 4)).getD 0 * (21 / 20) ≤
        (percentile summary.ratios (19 / 20)).getD 0 * (21 / 20) := by
      have := percentile_mono summary.ratios (show (3 / 4 : ℚ) ≤ 19 / 20 by norm_num)
      linarith
    exact
      { admit_pos := lt_min (blend_pos _ _ _) (blend_pos _ _ _)
        admit_le_pack :=
          (min_le_right _ _).trans (blend_mono (priorWeight_le_one _) quantiles)
        admit_le_input := min_le_left _ _ }
  next =>
    exact
      { admit_pos := routeInputTokenRatio_pos route.toCatalogRoute
        admit_le_pack := le_refl _
        admit_le_input := le_refl _ }

/-! ## Whole limits -/

variable {ratio : ℚ}

theorem scaledInputTokens_le {raw limit : ℚ} (positive : 0 < ratio) (notNegative : 0 ≤ raw)
    (whole : ∃ tokens : ℤ, limit = tokens) :
    scaledInputTokens raw ratio ≤ limit ↔ raw * ratio ≤ limit := by
  obtain ⟨tokens, rfl⟩ := whole
  rw [scaledInputTokens, if_pos positive, max_eq_right notNegative, Int.cast_le, Int.ceil_le]

theorem scaledInputTokens_mono (positive : 0 < ratio) (lowHigh : low ≤ high) :
    scaledInputTokens low ratio ≤ scaledInputTokens high ratio := by
  have products : max 0 low * ratio ≤ max 0 high * ratio := by gcongr
  rw [scaledInputTokens, scaledInputTokens, if_pos positive]
  exact_mod_cast Int.ceil_mono products

theorem learnedCeilings_acceptedMax (ledger : RouteLedger) (now : ℚ) :
    (learnedCeilings ledger now).acceptedMax = 0 ∨
      (learnedCeilings ledger now).acceptedMax = ledger.inputAcceptedMax := by
  simp only [learnedCeilings]
  split_ifs <;> simp

theorem learnedCeilings_rejectedMin (ledger : RouteLedger) (now : ℚ) :
    (learnedCeilings ledger now).rejectedMin = 0 ∨
      (learnedCeilings ledger now).rejectedMin = ledger.inputRejectedMin := by
  simp only [learnedCeilings]
  split_ifs <;> simp

section Limits

variable {route : SizedRoute} {ledger : RouteLedger} (whole : WholeLimits route ledger) {limit : ℚ}

theorem minLimit_whole {other : Option ℚ} (limitWhole : ∃ tokens : ℤ, limit = tokens)
    (otherWhole : ∀ tokens ∈ other, ∃ count : ℤ, tokens = count) :
    ∃ tokens : ℤ, minLimit limit other = tokens := by
  cases other with
  | none => exact limitWhole
  | some bound =>
      rcases min_choice limit bound with first | second
      · simpa [minLimit, first] using limitWhole
      · simpa [minLimit, second] using otherWhole bound rfl

theorem minLimit_mono (lowHigh : low ≤ high) (other : Option ℚ) :
    minLimit low other ≤ minLimit high other := by
  cases other with
  | none => exact lowHigh
  | some bound => exact min_le_min_right bound lowHigh

theorem limitOf_pos_eq {limit : Option ℚ} (positive : 0 < limitOf limit) :
    limit = some (limitOf limit) := by
  cases limit with
  | none => simp [limitOf] at positive
  | some value => rfl

include whole in
theorem hardInputCeilingLimit_whole
    (stated : hardInputCeilingLimit route.toCatalogRoute false = some limit) :
    0 < limit ∧ ∃ tokens : ℤ, limit = tokens := by
  have quotaWhole : ∀ quota, (if isGemini route.toCatalogRoute ∧ 0 < limitOf route.tpm then route.tpm
      else none) = some quota → 0 < quota ∧ ∃ tokens : ℤ, quota = tokens := by
    intro quota given
    split at given
    next gemini =>
      have positive := gemini.2
      rw [given] at positive
      exact ⟨positive, whole.tpm quota given⟩
    next => simp at given
  simp only [hardInputCeilingLimit, Bool.false_eq_true, if_false] at stated
  split at stated
  next => exact quotaWhole limit stated
  next ceiling =>
    have positive := not_le.mp ceiling
    have ceilingWhole := whole.ceiling _ (limitOf_pos_eq positive)
    obtain rfl := Option.some.inj stated
    refine ⟨?_, minLimit_whole ceilingWhole fun quota given => (quotaWhole quota given).2⟩
    cases quota : (if isGemini route.toCatalogRoute ∧ 0 < limitOf route.tpm then route.tpm
        else none) with
    | none => exact positive
    | some bound => exact lt_min positive (quotaWhole bound quota).1

include whole in
/-- A near miss is tried on top of the ceiling, never below it. -/
theorem hardInputCeilingLimit_tolerant {higher : ℚ}
    (stated : hardInputCeilingLimit route.toCatalogRoute true = some higher) :
    ∃ limit, hardInputCeilingLimit route.toCatalogRoute false = some limit ∧ limit ≤ higher := by
  simp only [hardInputCeilingLimit, if_true] at stated
  simp only [hardInputCeilingLimit, Bool.false_eq_true, if_false]
  split at stated
  next absent => exact ⟨higher, by rw [if_pos absent, stated], le_refl _⟩
  next ceiling =>
    have positive := not_le.mp ceiling
    obtain ⟨tokens, ceilingTokens⟩ := whole.ceiling _ (limitOf_pos_eq positive)
    refine ⟨_, if_neg ceiling, ?_⟩
    obtain rfl := Option.some.inj stated
    refine minLimit_mono ?_ _
    rw [ceilingTokens, Int.cast_le, Int.le_floor]
    refine le_mul_of_one_le_right ?_ ?_
    · rw [← ceilingTokens]
      exact positive.le
    · split_ifs with slack
      · linarith [slack.1]
      · linarith

variable {now : ℚ}

theorem mem_statedLimits :
    limit ∈ statedLimits route ledger now ↔
      (∃ ceiling, hardInputCeilingLimit route.toCatalogRoute false = some ceiling ∧
        limit = max ceiling (learnedCeilings ledger now).acceptedMax) ∨
      (0 < (learnedCeilings ledger now).rejectedMin ∧
        limit = (learnedCeilings ledger now).rejectedMin - 1) ∨
      (route.inputContextLimit = some limit ∧ 0 < limit) := by
  have context : route.inputContextLimit.filter (fun context => 0 < context) = some limit ↔
      route.inputContextLimit = some limit ∧ 0 < limit := by
    rw [Option.filter_eq_some_iff, decide_eq_true_iff]
  have ceiling : (hardInputCeilingLimit route.toCatalogRoute false).map (fun ceiling =>
        max ceiling (learnedCeilings ledger now).acceptedMax) = some limit ↔
      ∃ ceiling, hardInputCeilingLimit route.toCatalogRoute false = some ceiling ∧
        limit = max ceiling (learnedCeilings ledger now).acceptedMax := by
    rw [Option.map_eq_some_iff]
    simp only [eq_comm]
  simp only [statedLimits, List.mem_append, Option.mem_toList, context, ceiling,
    or_assoc]
  by_cases rejected : 0 < (learnedCeilings ledger now).rejectedMin
  · rw [if_pos rejected, List.mem_singleton, and_iff_right rejected]
  · rw [if_neg rejected]
    simp only [List.not_mem_nil, rejected, false_and]

include whole in
theorem mem_statedLimits_whole (stated : limit ∈ statedLimits route ledger now) :
    0 ≤ limit ∧ ∃ tokens : ℤ, limit = tokens := by
  rcases mem_statedLimits.mp stated with ⟨ceiling, given, rfl⟩ | ⟨positive, rfl⟩ | ⟨given, positive⟩
  · obtain ⟨positive, ceilingWhole⟩ := hardInputCeilingLimit_whole whole given
    refine ⟨positive.le.trans (le_max_left _ _), ?_⟩
    rcases max_choice ceiling (learnedCeilings ledger now).acceptedMax with first | second
    · rwa [first]
    · rw [second]
      rcases learnedCeilings_acceptedMax ledger now with dropped | kept
      · exact ⟨0, by rw [dropped, Int.cast_zero]⟩
      · rw [kept]
        exact whole.accepted
  · rcases learnedCeilings_rejectedMin ledger now with dropped | kept
    · rw [dropped] at positive
      exact absurd positive (lt_irrefl 0)
    · obtain ⟨tokens, rejectedTokens⟩ := whole.rejected
      rw [kept, rejectedTokens] at positive ⊢
      have atLeastOne : (1 : ℤ) ≤ tokens := by exact_mod_cast positive
      refine ⟨?_, tokens - 1, by push_cast; ring⟩
      have : (1 : ℚ) ≤ tokens := by exact_mod_cast atLeastOne
      linarith
  · exact ⟨positive.le, whole.context limit given⟩

end Limits

/-! ## The size gate -/

section Gates

variable {route : SizedRoute} {ledger : RouteLedger} {calibration : Calibration} {now raw : ℚ}

theorem minLimit_admitRatio (ordered : calibration.Ordered) :
    minLimit calibration.inputRatio (some calibration.admitRatio) = calibration.admitRatio :=
  min_eq_right ordered.admit_le_input

theorem inputSizeRefusal_none (whole : WholeLimits route ledger) (ordered : calibration.Ordered)
    (fits : ∀ limit ∈ statedLimits route ledger now,
      scaledInputTokens raw calibration.admitRatio ≤ limit) (tolerant : Bool) :
    inputSizeRefusal route.toCatalogRoute ledger raw (some calibration.inputRatio)
      (some calibration.admitRatio) now tolerant = none := by
  have belowRejected : 0 < (learnedCeilings ledger now).rejectedMin →
      ¬ (learnedCeilings ledger now).rejectedMin ≤ scaledInputTokens raw calibration.admitRatio := by
    intro positive reached
    have below := fits _ (mem_statedLimits.mpr (Or.inr (Or.inl ⟨positive, rfl⟩)))
    linarith
  simp only [inputSizeRefusal, Option.getD_some, minLimit_admitRatio ordered]
  rw [if_neg fun refused => belowRejected refused.2.1 refused.2.2]
  cases higher : hardInputCeilingLimit route.toCatalogRoute tolerant with
  | none => rfl
  | some bound =>
      have ceiling : ∃ limit, hardInputCeilingLimit route.toCatalogRoute false = some limit ∧
          limit ≤ bound := by
        cases tolerant with
        | false => exact ⟨bound, higher, le_refl bound⟩
        | true => exact hardInputCeilingLimit_tolerant whole higher
      obtain ⟨limit, stated, limitBound⟩ := ceiling
      have below := fits _ (mem_statedLimits.mpr (Or.inl ⟨limit, stated, rfl⟩))
      exact if_neg (not_lt.mpr (below.trans (max_le_max_right _ limitBound)))

/-! ## The packed estimate -/

theorem packingInputLimit_eq (ordered : calibration.Ordered) :
    packingInputLimit route ledger (some calibration.packRatio) now =
      (statedLimits route ledger now).min?.map fun tightest =>
        (⌊tightest / calibration.packRatio⌋ : ℚ) := by
  simp [packingInputLimit, Option.filter_some, ordered.pack_pos]

theorem contextLimit_whole (whole : WholeLimits route ledger) :
    ∃ tokens : ℤ, contextLimit route = tokens := by
  rw [contextLimit]
  split
  · exact ⟨32768, by norm_num⟩
  · cases given : route.inputContextLimit with
    | none => exact ⟨0, by simp⟩
    | some limit => exact whole.context limit given

theorem overMinuteQuota_false {route : CatalogRoute} {admitEstimate : ℚ} :
    overMinuteQuota route admitEstimate = false ↔
      (isGemini route → 0 < limitOf route.tpm → admitEstimate ≤ limitOf route.tpm) := by
  simp [overMinuteQuota]

variable {tightest : ℚ}

theorem packed_nonneg (whole : WholeLimits route ledger) (ordered : calibration.Ordered)
    (least : (statedLimits route ledger now).min? = some tightest) :
    (0 : ℚ) ≤ ⌊tightest / calibration.packRatio⌋ := by
  have notNegative := (mem_statedLimits_whole whole (List.min?_mem least)).1
  have quotient : 0 ≤ tightest / calibration.packRatio := div_nonneg notNegative ordered.pack_pos.le
  exact_mod_cast Int.floor_nonneg.mpr quotient

theorem packed_mul_le (whole : WholeLimits route ledger) (ordered : calibration.Ordered)
    (least : (statedLimits route ledger now).min? = some tightest)
    (ratioBound : ratio ≤ calibration.packRatio) :
    ⌊tightest / calibration.packRatio⌋ * ratio ≤ tightest := by
  have notNegative := packed_nonneg whole ordered least
  calc (⌊tightest / calibration.packRatio⌋ : ℚ) * ratio
      ≤ ⌊tightest / calibration.packRatio⌋ * calibration.packRatio := by gcongr
    _ ≤ tightest / calibration.packRatio * calibration.packRatio := by
        have := ordered.pack_pos.le
        have := Int.floor_le (tightest / calibration.packRatio)
        gcongr
    _ = tightest := div_mul_cancel₀ tightest ordered.pack_pos.ne'

/-- Up to the packed estimate the size gate never refuses. -/
theorem packed_fits (whole : WholeLimits route ledger) (ordered : calibration.Ordered)
    (least : (statedLimits route ledger now).min? = some tightest)
    (below : raw ≤ ⌊tightest / calibration.packRatio⌋) :
    ∀ limit ∈ statedLimits route ledger now,
      scaledInputTokens raw calibration.admitRatio ≤ limit := by
  intro limit stated
  have tightestWhole := (mem_statedLimits_whole whole (List.min?_mem least)).2
  have notNegative := packed_nonneg whole ordered least
  have tightestBound : tightest ≤ limit := (List.min?_eq_some_iff.mp least).2 limit stated
  calc scaledInputTokens raw calibration.admitRatio
      ≤ scaledInputTokens ⌊tightest / calibration.packRatio⌋ calibration.admitRatio :=
        scaledInputTokens_mono ordered.admit_pos below
    _ ≤ tightest := (scaledInputTokens_le ordered.admit_pos notNegative tightestWhole).mpr
        (packed_mul_le whole ordered least ordered.admit_le_pack)
    _ ≤ limit := tightestBound

theorem tpm_whole (whole : WholeLimits route ledger) (limited : 0 < limitOf route.tpm) :
    ∃ tokens : ℤ, limitOf route.tpm = tokens :=
  whole.tpm _ (limitOf_pos_eq limited)

theorem inputAdmitted_of_room (whole : WholeLimits route ledger) (ordered : calibration.Ordered)
    (least : (statedLimits route ledger now).min? = some tightest)
    (room : RoomAtTightest route ledger calibration now)
    (below : raw ≤ ⌊tightest / calibration.packRatio⌋) :
    InputAdmitted route ledger calibration now raw := by
  obtain ⟨context, minute⟩ := room tightest least
  have notNegative := packed_nonneg whole ordered least
  constructor
  case size =>
    exact inputSizeRefusal_none whole ordered (packed_fits whole ordered least below)
  case minute =>
    rw [minLimit_admitRatio ordered, overMinuteQuota_false]
    intro gemini limited
    exact (scaledInputTokens_mono ordered.admit_pos below).trans
      ((scaledInputTokens_le ordered.admit_pos notNegative (tpm_whole whole limited)).mpr
        (minute gemini limited))
  case context =>
    exact (scaledInputTokens_mono ordered.input_pos below).trans
      ((scaledInputTokens_le ordered.input_pos notNegative (contextLimit_whole whole)).mpr context)

theorem room_of_inputAdmitted (whole : WholeLimits route ledger) (ordered : calibration.Ordered)
    (least : (statedLimits route ledger now).min? = some tightest)
    (taken : InputAdmitted route ledger calibration now ⌊tightest / calibration.packRatio⌋) :
    ⌊tightest / calibration.packRatio⌋ * calibration.inputRatio ≤ contextLimit route ∧
      (isGemini route.toCatalogRoute → 0 < limitOf route.tpm →
        ⌊tightest / calibration.packRatio⌋ * calibration.admitRatio ≤ limitOf route.tpm) := by
  have notNegative := packed_nonneg whole ordered least
  constructor
  · exact (scaledInputTokens_le ordered.input_pos notNegative (contextLimit_whole whole)).mp
      taken.context
  · intro gemini limited
    have minute := taken.minute
    rw [minLimit_admitRatio ordered, overMinuteQuota_false] at minute
    exact (scaledInputTokens_le ordered.admit_pos notNegative (tpm_whole whole limited)).mp
      (minute gemini limited)

end Gates

def tailRoute : SizedRoute := { provider := "mistral", inputContextLimit := some 1050 }

/-- One ratio in thirty is twice the others. -/
def tailSummary : CalibrationSummary := { ratios := List.replicate 61 1 ++ [2, 2, 2] }

theorem tailRoute_whole : WholeLimits tailRoute {} := by
  constructor
  case ceiling => simp [tailRoute]
  case tpm => simp [tailRoute]
  case context => exact fun limit stated => ⟨1050, (Option.some.inj stated).symm.trans (by norm_num)⟩
  case accepted => exact ⟨0, by norm_num⟩
  case rejected => exact ⟨0, by norm_num⟩

end CityPods.Dispatch
