import CityPods.Dispatch.ClaimFrontier
import CityPods.Dispatch.Eligibility
import CityPods.Dispatch.SafeStart

/-! # Structural failure

A claim fails a queued job that is too large for every route the full catalog
permits it. It judges the size by what the routes have learned as the wall clock
has it, and leaves out the limits on a job's tokens. The pacing gate refuses a job
for good by the claim's own time, and by those limits too.
-/

namespace CityPods.Dispatch

open Foundation

/-! ## Refused for good -/

section

variable (calendar : Calendar) (limits : ClaimLimits) (catalog : ClaimCatalog) (call : ClaimCall)
  (state : Coordinator) (job : JobRow) (route : ClaimRoute)

/-- Waiting never makes room on the route for the job, not even within the tolerance. -/
def RefusesForGood : Prop :=
  ∃ refusal, earliestSafeStart calendar route.catalog (mergedRoute call state.routes route)
    job.sized call.now call.now
    (capacityOptions limits catalog call state.providers route job true) = .error refusal

/-- The prompt cap or the ceiling of the route is below the job's size, by the sizes
that the route has learned as a clock has it. -/
def exceedsCeilingAt (clock : ℚ) : Bool :=
  exceedsCeiling catalog { call with wallClock := clock } state job route

/-- The route's ceiling and what it has accepted are below the job's size. -/
def OverCeilingAt (clock : ℚ) : Prop :=
  ∃ limit, hardInputCeilingLimit route.catalog true = some limit ∧
    max limit (learnedCeilings (mergedRoute call state.routes route) clock).acceptedMax <
      scaledInputTokens job.inputTokenEstimate ((catalog.calibration route job).admitRatio.getD 0)

def OverPromptCap : Prop :=
  0 < (mergedRoute call state.routes route).promptCapEstimate ∧
    (mergedRoute call state.routes route).promptCapEstimate < job.inputTokenEstimate

/-- The job's tokens are more than a day of the route, a minute of its input quota or
the whole bucket of its provider. -/
def ExceedsTokens : Prop :=
  let options := capacityOptions limits catalog call state.providers route job true
  let reservation := reservationFor route.catalog job.sized options
  (0 < limitOf route.catalog.tpd ∧ limitOf route.catalog.tpd < reservation) ∨
    (isGemini route.catalog = true ∧ 0 < limitOf route.catalog.tpm ∧
      limitOf route.catalog.tpm < scaledInputTokens job.inputTokenEstimate
        ((catalog.calibration route job).admitRatio.getD 0)) ∨
      ∃ tpm shared, providerLimit route.catalog options = some (tpm, shared) ∧
        tpm * fullTokenBudgetWindows < reservation

end

/-- A calibration as the pacing gate is given it. -/
def Calibration.sizes (calibration : Calibration) : SizeCalibration where
  inputRatio := some calibration.inputRatio
  admitRatio := some calibration.admitRatio
  outputForecast := calibration.outputForecast

/-- The claim's ratios and forecasts are those of calibration summaries. -/
def ClaimCatalog.Calibrated (catalog : ClaimCatalog) : Prop :=
  ∀ route job, ∃ (sized : SizedRoute) (summary : CalibrationSummary),
    sized.toCatalogRoute = route.catalog ∧
      catalog.calibration route job = (calibrationFor sized summary).sizes

theorem admitRatio_le (route : SizedRoute) (summary : CalibrationSummary) :
    (calibrationFor route summary).admitRatio ≤ (calibrationFor route summary).inputRatio := by
  unfold calibrationFor
  dsimp only
  split
  · exact min_le_left _ _
  · exact le_rfl

section

variable {calendar : Calendar} {limits : ClaimLimits} {catalog : ClaimCatalog} {call : ClaimCall}
  {state : Coordinator} {job : JobRow} {route : ClaimRoute}

theorem ClaimCatalog.Calibrated.lenient (calibrated : catalog.Calibrated) (tolerant : Bool) :
    minLimit ((capacityOptions limits catalog call state.providers route job tolerant).ratio
        route.catalog) (catalog.calibration route job).admitRatio =
      (catalog.calibration route job).admitRatio.getD 0 := by
  obtain ⟨sized, summary, _, same⟩ := calibrated route job
  have smaller := admitRatio_le sized summary
  show minLimit ((catalog.calibration route job).inputRatio.getD _)
    (catalog.calibration route job).admitRatio = _
  rw [same]
  exact min_eq_right smaller

theorem sizeRefusal_iff (calibrated : catalog.Calibrated) :
    (∃ refusal, inputSizeRefusal route.catalog (mergedRoute call state.routes route)
        job.inputTokenEstimate
        (some ((capacityOptions limits catalog call state.providers route job true).ratio
          route.catalog)) (catalog.calibration route job).admitRatio call.now true = some refusal) ↔
      OverCeilingAt catalog call state job route call.now := by
  unfold inputSizeRefusal OverCeilingAt
  simp only [Option.getD_some, calibrated.lenient, not_true_eq_false, false_and, if_false]
  cases hardInputCeilingLimit route.catalog true with
  | none => simp
  | some limit =>
      dsimp only
      split
      · next above => exact iff_of_true ⟨_, rfl⟩ ⟨limit, rfl, above⟩
      · next within =>
        constructor
        · rintro ⟨_, ⟨⟩⟩
        · rintro ⟨_, ⟨⟩, above⟩
          exact absurd above within

theorem exceedsCeilingAt_iff (clock : ℚ) :
    exceedsCeilingAt catalog call state job route clock = true ↔
      OverPromptCap call state job route ∨ OverCeilingAt catalog call state job route clock := by
  have same : mergedRoute { call with wallClock := clock } state.routes route =
      mergedRoute call state.routes route := rfl
  unfold exceedsCeilingAt exceedsCeiling OverPromptCap OverCeilingAt
  rw [same]
  dsimp only
  split
  · next capped => exact iff_of_true rfl (.inl capped)
  · next uncapped =>
    rw [or_iff_right uncapped]
    cases hardInputCeilingLimit route.catalog true with
    | none => simp
    | some limit => simp

theorem refusesForGood_iff (calibrated : catalog.Calibrated) (running : route.catalog.rpd ≠ some 0) :
    RefusesForGood calendar limits catalog call state job route ↔
      exceedsCeilingAt catalog call state job route call.now = true ∨
        ExceedsTokens limits catalog call state job route := by
  have lenient := @ClaimCatalog.Calibrated.lenient limits catalog call state job route calibrated true
  have sized := @sizeRefusal_iff limits catalog call state job route calibrated
  have refused : RefusesForGood calendar limits catalog call state job route ↔
      PermanentlyRefused route.catalog (mergedRoute call state.routes route) job.sized call.now
        (capacityOptions limits catalog call state.providers route job true) := by
    rw [← permanentRefusal_isSome]
    unfold RefusesForGood earliestSafeStart
    cases permanentRefusal route.catalog (mergedRoute call state.routes route) job.sized call.now
        (capacityOptions limits catalog call state.providers route job true) with
    | none => simp
    | some refusal => simp
  rw [refused, exceedsCeilingAt_iff, ← sized]
  constructor
  · intro refused
    cases refused with
    | paused paused => exact absurd paused running
    | size refusal _ same => exact .inl (.inr ⟨refusal, same⟩)
    | promptCap _ cap above => exact .inl (.inl ⟨cap, above⟩)
    | dailyTokens limited above => exact .inr (.inl ⟨limited, above⟩)
    | inputMinute gemini limited above =>
        exact .inr (.inr (.inl ⟨gemini, limited, above.trans_eq (congrArg _ lenient)⟩))
    | provider tpm shared limit above => exact .inr (.inr (.inr ⟨tpm, shared, limit, above⟩))
  · rintro ((⟨cap, above⟩ | ⟨refusal, same⟩) |
      (⟨limited, above⟩ | ⟨gemini, limited, above⟩ | ⟨tpm, shared, limit, above⟩))
    · exact .promptCap rfl cap above
    · exact .size refusal rfl same
    · exact .dailyTokens limited above
    · exact .inputMinute gemini limited (above.trans_eq (congrArg _ lenient.symm))
    · exact .provider tpm shared limit above

theorem overCeiling_strict {catalog : CatalogRoute} {limit size : ℚ} {tokens : ℤ} (whole : size = tokens)
    (tolerant : hardInputCeilingLimit catalog true = some limit) (above : limit < size) :
    ∃ strict, hardInputCeilingLimit catalog false = some strict ∧ strict < size := by
  unfold hardInputCeilingLimit at tolerant ⊢
  dsimp only at tolerant ⊢
  split at tolerant
  · next unlimited =>
    rw [if_pos unlimited]
    exact ⟨limit, tolerant, above⟩
  · next limited =>
    rw [if_neg limited, if_neg Bool.false_ne_true]
    rw [if_pos rfl] at tolerant
    refine ⟨_, rfl, ?_⟩
    cases tolerant
    have below {slack : ℚ} (positive : 0 ≤ slack)
        (floored : (⌊limitOf catalog.hardInputCeiling * (1 + slack)⌋ : ℚ) < size) :
        limitOf catalog.hardInputCeiling < size := by
      rw [whole, Int.cast_lt, Int.floor_lt, ← whole] at floored
      refine lt_of_le_of_lt ?_ floored
      rw [mul_add, mul_one]
      exact le_add_of_nonneg_right (mul_nonneg (not_le.mp limited).le positive)
    have slack : 0 ≤ if 0 < limitOf catalog.hardInputCeilingTolerance ∧
        limitOf catalog.hardInputCeilingTolerance ≤ 1 / 2 then
          limitOf catalog.hardInputCeilingTolerance else 0 := by
      split
      · next within => exact within.1.le
      · exact le_rfl
    generalize (if isGemini catalog = true ∧ 0 < limitOf catalog.tpm then catalog.tpm else none) =
      quota at above ⊢
    cases quota with
    | none => exact below slack above
    | some quota =>
        rcases min_lt_iff.mp above with floored | spent
        · exact min_lt_iff.mpr (.inl (below slack floored))
        · exact min_lt_iff.mpr (.inr spent)

/-- Whatever refuses a size within the tolerance refuses it without. -/
theorem sizeRefusal_strict {ledger : RouteLedger} {raw now : ℚ} {inputRatio admitRatio : Option ℚ}
    {refusal : Refusal}
    (refused : inputSizeRefusal route.catalog ledger raw inputRatio admitRatio now true =
      some refusal) :
    ∃ strict, inputSizeRefusal route.catalog ledger raw inputRatio admitRatio now false =
      some strict := by
  unfold inputSizeRefusal at refused ⊢
  dsimp only at refused ⊢
  split
  · exact ⟨_, rfl⟩
  · simp only [not_true_eq_false, false_and, if_false] at refused
    split at refused
    · cases refused
    · next limit ceiling =>
      split at refused
      · next above =>
        obtain ⟨strict, stricter, below⟩ :=
          overCeiling_strict rfl ceiling (lt_of_le_of_lt (le_max_left _ _) above)
        have accepted := lt_of_le_of_lt (le_max_right _ _) above
        rw [stricter]
        exact ⟨_, if_pos (max_lt below accepted)⟩
      · cases refused

theorem not_refusesForGood_of_fits {tolerance : Bool}
    (taken : fits calendar limits catalog call state job route tolerance = true) :
    ¬ RefusesForGood calendar limits catalog call state job route := by
  have admitted : ¬ PermanentlyRefused route.catalog (mergedRoute call state.routes route) job.sized
      call.now (capacityOptions limits catalog call state.providers route job tolerance) := by
    rw [← permanentRefusal_isSome]
    intro refused
    obtain ⟨refusal, same⟩ := Option.isSome_iff_exists.mp refused
    unfold fits routeHasCapacityFor earliestSafeStart at taken
    rw [same] at taken
    cases taken
  rintro ⟨refusal, refused⟩
  have stays : PermanentlyRefused route.catalog (mergedRoute call state.routes route) job.sized
      call.now (capacityOptions limits catalog call state.providers route job true) := by
    rw [← permanentRefusal_isSome]
    unfold earliestSafeStart at refused
    split at refused
    · next same => exact same ▸ rfl
    · cases refused
  refine admitted ?_
  cases tolerance with
  | true => exact stays
  | false =>
      cases stays with
      | paused paused => exact .paused paused
      | size refusal _ same =>
          obtain ⟨strict, same⟩ := sizeRefusal_strict same
          exact .size strict rfl same
      | promptCap _ cap above => exact .promptCap rfl cap above
      | dailyTokens limited above => exact .dailyTokens limited above
      | inputMinute gemini limited above => exact .inputMinute gemini limited above
      | provider tpm shared limit above => exact .provider tpm shared limit above

/-! ## What the selection makes of a job -/

variable {bundleJobLimit start : Nat} {selection : Selection} {routes : List ClaimRoute}
  {candidates : List Candidate}

/-- What every offer keeps, the turn of a model keeps. -/
theorem offerModel_preserves {motive : Selection → Prop} (step : ∀ selection job, motive selection →
      motive (offerJob calendar limits catalog call state selection job))
    (holds : motive selection) (plan : ModelPlan) :
    motive (offerModel calendar limits catalog call state bundleJobLimit selection plan) := by
  have page (selection : Selection) (start : Nat) (candidates : List Candidate)
      (holds : motive selection) :
      motive (offerJobs calendar limits catalog call state bundleJobLimit start selection
        candidates) := by
    unfold offerJobs
    refine List.foldlRecOn candidates _ holds fun selection holds candidate _ => ?_
    split
    · exact holds
    · exact step selection candidate.job holds
  rw [offerModel_eq]
  dsimp only
  split
  · exact holds
  · split
    · exact page _ _ _ (page _ _ _ holds)
    · exact page _ _ _ holds

/-- Every failed job is over each ceiling, and every other job that is taken fits. -/
structure Selection.Explained (calendar : Calendar) (limits : ClaimLimits) (catalog : ClaimCatalog)
    (call : ClaimCall) (state : Coordinator) (selection : Selection) : Prop where
  oversize : ∀ failed ∈ selection.oversize, exceedsEveryLiveCeiling catalog call state failed = true
  taken : ∀ entry ∈ selection.chosen ++ selection.drains,
    entry.route ∈ catalog.routesEligibleFor state.routes entry.job ∧
      ∃ tolerance, fits calendar limits catalog call state entry.job entry.route tolerance = true

namespace Selection.Explained

theorem empty : Explained calendar limits catalog call state {} :=
  ⟨fun _ absent => absurd absent List.not_mem_nil, fun _ absent => absurd absent List.not_mem_nil⟩

theorem offerRoutes (explained : Explained calendar limits catalog call state selection)
    (eligible : ∀ route ∈ routes, route ∈ catalog.routesEligibleFor state.routes job) :
    Explained calendar limits catalog call state
      (Dispatch.offerRoutes calendar limits catalog call state job routes selection) := by
  induction routes generalizing selection with
  | nil => exact explained
  | cons route later induction =>
      have here := eligible route List.mem_cons_self
      have rest := fun other member => eligible other (List.mem_cons_of_mem route member)
      unfold Dispatch.offerRoutes
      split
      · exact induction ⟨explained.oversize, explained.taken⟩ rest
      · split
        · next taken =>
          refine ⟨explained.oversize, fun entry member => ?_⟩
          rcases List.mem_append.mp member with chosen | drained
          · rcases List.mem_append.mp chosen with before | added
            · exact explained.taken entry (List.mem_append_left _ before)
            · rw [List.mem_singleton.mp added]
              exact ⟨here, false, taken⟩
          · exact explained.taken entry (List.mem_append_right _ drained)
        · split
          · next near =>
            refine induction ?_ rest
            unfold Selection.keepAside
            split
            · exact ⟨explained.oversize, explained.taken⟩
            · refine ⟨explained.oversize, fun entry member => ?_⟩
              rcases List.mem_append.mp member with chosen | drained
              · exact explained.taken entry (List.mem_append_left _ chosen)
              · rcases List.mem_append.mp drained with before | added
                · exact explained.taken entry (List.mem_append_right _ before)
                · rw [List.mem_singleton.mp added]
                  exact ⟨here, true, near⟩
          · exact induction ⟨explained.oversize, explained.taken⟩ rest

theorem offerJob (explained : Explained calendar limits catalog call state selection)
    (job : JobRow) :
    Explained calendar limits catalog call state
      (Dispatch.offerJob calendar limits catalog call state selection job) := by
  unfold Dispatch.offerJob
  split
  · exact explained
  · have offered : Explained calendar limits catalog call state
        (Dispatch.offerRoutes calendar limits catalog call state job
          (routeOrder catalog state job selection)
          { selection with candidateJobs := selection.candidateJobs + 1 }) :=
      offerRoutes ⟨explained.oversize, explained.taken⟩ fun route => mem_routeOrder.mp
    unfold judgeSize
    split
    · next above =>
      refine ⟨fun failed member => ?_, offered.taken⟩
      rcases List.mem_append.mp member with before | added
      · exact offered.oversize failed before
      · rw [List.mem_singleton.mp added]
        exact above.2.2.2
    · exact offered

end Selection.Explained

theorem selectJobs_explained : Selection.Explained calendar limits catalog call state
    (selectJobs calendar limits catalog call state bundleJobLimit) := by
  unfold selectJobs
  exact List.foldlRecOn _ _ .empty fun selection explained plan _ =>
    offerModel_preserves (fun _ job explained => explained.offerJob job) explained plan

def Selection.Judged (catalog : ClaimCatalog) (call : ClaimCall) (state : Coordinator) (job : JobRow)
    (selection : Selection) : Prop :=
  job.id ∈ chosenIds selection.chosen ∨ job.id ∈ chosenIds selection.drains ∨
    (exceedsEveryLiveCeiling catalog call state job = true →
      job.id ∈ selection.oversize.map JobRow.id)

theorem judgeSize_judged : (judgeSize catalog call state job selection).Judged catalog call state job := by
  unfold judgeSize Selection.Judged
  split
  · next unplaced =>
    refine .inr (.inr fun _ => ?_)
    show job.id ∈ (selection.oversize ++ [job]).map JobRow.id
    simp
  · next kept => tauto

theorem drains_offerJob (other : JobRow) {jobId : String}
    (member : jobId ∈ chosenIds selection.drains) :
    jobId ∈ chosenIds (offerJob calendar limits catalog call state selection other).drains := by
  unfold offerJob
  split
  · exact member
  · have offered : jobId ∈ chosenIds (offerRoutes calendar limits catalog call state other
        (routeOrder catalog state other selection)
        { selection with candidateJobs := selection.candidateJobs + 1 }).drains :=
      mem_drains_offerRoutes member
    unfold judgeSize
    split <;> exact offered

theorem Selection.Judged.offerJob (judged : selection.Judged catalog call state job)
    (other : JobRow) :
    (Dispatch.offerJob calendar limits catalog call state selection other).Judged catalog call state
      job := by
  have grows : selection.Grows
      (Dispatch.offerJob calendar limits catalog call state selection other) := offerJob_grows
  rcases judged with chosen | drained | failed
  · exact .inl ((grows.chosen.map _).subset chosen)
  · exact .inr (.inl (drains_offerJob other drained))
  · exact .inr (.inr fun above => (grows.oversize.map _).subset (failed above))

theorem offerJob_judged : (offerJob calendar limits catalog call state selection job).Judged catalog
    call state job := by
  unfold offerJob
  split
  · next chosen => exact .inl chosen
  · exact judgeSize_judged

theorem offerJobs_judged (judged : selection.Judged catalog call state job) :
    (offerJobs calendar limits catalog call state bundleJobLimit start selection
      candidates).Judged catalog call state job := by
  unfold offerJobs
  refine List.foldlRecOn candidates _ judged fun selection judged candidate _ => ?_
  split
  · exact judged
  · exact judged.offerJob candidate.job

theorem examinedJobs_judged
    (examined : job ∈ examinedJobs calendar limits catalog call state bundleJobLimit start selection
      candidates) :
    (offerJobs calendar limits catalog call state bundleJobLimit start selection
      candidates).Judged catalog call state job := by
  induction candidates generalizing selection with
  | nil => cases examined
  | cons candidate rest induction =>
      rw [examinedJobs] at examined
      rw [offerJobs_cons]
      split at examined
      · cases examined
      · next room =>
        rw [if_neg room]
        split at examined
        · next known =>
          rw [offerJob, if_pos known]
          exact induction examined
        · rcases List.mem_cons.mp examined with rfl | later
          · exact offerJobs_judged offerJob_judged
          · exact induction later

theorem examinedJobs_subset : examinedJobs calendar limits catalog call state bundleJobLimit start
    selection candidates ⊆ candidates.map Candidate.job := by
  induction candidates generalizing selection with
  | nil => exact List.Subset.refl _
  | cons candidate rest induction =>
      intro job member
      rw [examinedJobs] at member
      split at member
      · cases member
      · split at member
        · exact List.mem_cons_of_mem _ (induction member)
        · rcases List.mem_cons.mp member with rfl | later
          · exact List.mem_cons_self
          · exact List.mem_cons_of_mem _ (induction later)

variable {plan : ModelPlan}

theorem examined_judged
    (member : job ∈ examined calendar limits catalog call state bundleJobLimit selection plan) :
    (offerModel calendar limits catalog call state bundleJobLimit selection plan).Judged catalog call
      state job := by
  rw [examined] at member
  rw [offerModel_eq]
  split at member
  · cases member
  · next room =>
    rw [if_neg room]
    dsimp only
    rcases List.mem_append.mp member with head | extended
    · have judged : (afterHead calendar limits catalog call state bundleJobLimit selection
          plan).Judged catalog call state job := examinedJobs_judged head
      split
      · exact offerJobs_judged judged
      · exact judged
    · split at extended
      · next reads =>
        rw [if_pos reads]
        exact examinedJobs_judged extended
      · cases extended

theorem offers_of_examined (coherent : state.tables.Coherent)
    (member : job ∈ examined calendar limits catalog call state bundleJobLimit selection plan) :
    state.tables.Offers job := by
  have offered (after : Option QueuePosition) (limit : Nat)
      (listed : job ∈ (state.tables.queue.readCandidates state.tables.jobs plan.model after
        limit).map Candidate.job) : state.tables.Offers job :=
    (coherent.readCandidates plan.model after limit).2 job listed
  rw [examined] at member
  split at member
  · cases member
  · rcases List.mem_append.mp member with head | extended
    · exact offered _ _ (examinedJobs_subset head)
    · split at extended
      · exact offered _ _ (examinedJobs_subset extended)
      · cases extended

end

/-! ## What becomes of its row -/

def Coordinator.Fails (after : Coordinator) (job : JobRow) : Prop :=
  (after.tables.jobs.get? job.id).map JobRow.state = some .failed

def FailsAlike (before after : Option JobRow) : Prop :=
  before.map JobRow.state = some .failed ↔ after.map JobRow.state = some .failed

theorem FailsAlike.refl (row : Option JobRow) : FailsAlike row row := Iff.rfl

theorem FailsAlike.trans (first second third : Option JobRow) (left : FailsAlike first second)
    (right : FailsAlike second third) : FailsAlike first third :=
  Iff.trans left right

section

variable {calendar : Calendar} {limits : ClaimLimits} {catalog : ClaimCatalog} {call : ClaimCall}
  {job : JobRow}

theorem failOversize_failed {jobs : List JobRow} {tables after : JobTables}
    (coherent : tables.Coherent) (distinct : (jobs.map JobRow.id).Nodup)
    (offered : ∀ job ∈ jobs, tables.Offers job)
    (ran : jobs.foldlM (failOversizeJob catalog call) tables = some after) (member : job ∈ jobs) :
    after.jobs.get? job.id = some (oversizeRow catalog call job) := by
  have edits : JobTables.Edits (jobs.map fun job =>
      ⟨job.id, some job, some (oversizeRow catalog call job)⟩) tables after :=
    .of_foldlM coherent distinct (fun job member => (offered job member).1) (fun _ _ => rfl)
      (fun job member _ _ coherent found step =>
        failOversizeJob_writes coherent ⟨found, (offered job member).2⟩ step) ran
  have apart : ((jobs.map fun job => (⟨job.id, some job, some (oversizeRow catalog call job)⟩ :
      Change)).map Change.jobId).Nodup := by
    rw [List.map_map]
    exact distinct
  exact edits.changed apart (List.mem_map_of_mem member)

theorem fails_iff {state after : Coordinator} {bundleJobLimit : Nat} {queuedDelta : ℤ}
    {reply : ClaimReply} (coherent : state.tables.Coherent) (offered : state.tables.Offers job)
    (ran : dispatchJobs calendar limits catalog call bundleJobLimit queuedDelta state =
      some (after, reply)) :
    after.Fails job ↔ job.id ∈ (selectJobs calendar limits catalog call
      (touchLedgers catalog call state) bundleJobLimit).oversize.map JobRow.id := by
  have sound : Selection.Sound calendar limits catalog call (touchLedgers catalog call state) _ :=
    selectJobs_sound (by exact coherent) bundleJobLimit
  unfold dispatchJobs at ran
  dsimp only at ran
  generalize selectJobs calendar limits catalog call (touchLedgers catalog call state)
    bundleJobLimit = selection at ran sound ⊢
  obtain ⟨distinct, chosen⟩ := drainPass_spec sound bundleJobLimit
  obtain ⟨tables, failed, leased⟩ := Option.bind_eq_some_iff.mp ran
  have moved := failOversize_moves (by exact coherent) sound.oversize sound.oversizeRows failed 0
  have remains (entry : Chosen) (member : entry ∈ drainPass limits catalog
      (touchLedgers catalog call state) bundleJobLimit selection) : tables.Offers entry.job := by
    obtain ⟨here, apart⟩ := chosen entry member
    have unchanged : state.tables.jobs.get? entry.job.id = tables.jobs.get? entry.job.id :=
      moved.unchanged fun change permitted named => apart (named ▸ permitted.1)
    exact ⟨unchanged.symm.trans here.1, here.2⟩
  obtain ⟨_, leases⟩ := leaseChosen_moves (moved.coherent coherent) distinct remains leased
  -- A lease takes a queued row, so that no failed row comes of it or is lost in it.
  have kept : (tables.jobs.get? job.id).map JobRow.state = some .failed ↔ after.Fails job := by
    have alike : FailsAlike (tables.jobs.get? job.id) (after.tables.jobs.get? job.id) :=
      leases.relates FailsAlike.refl FailsAlike.trans job.id fun change leased _ => by
        rw [FailsAlike, leased.source, leased.target]
        decide
    exact alike
  rw [← kept]
  constructor
  · intro failed
    by_contra absent
    have unchanged : state.tables.jobs.get? job.id = tables.jobs.get? job.id :=
      moved.unchanged fun change permitted named => absent (named ▸ permitted.1)
    rw [← unchanged, offered.1, Option.map_some, offered.2] at failed
    cases failed
  · intro member
    obtain ⟨row, listed, same⟩ := List.mem_map.mp member
    rw [← same, failOversize_failed (by exact coherent) sound.oversize sound.oversizeRows failed
      listed]
    rfl

end

/-! ## When the failure is exact -/

/-- What a claim's routes are made from: the full catalog, the routes that are paused,
the policies of the jobs, the live inputs of the size gate, and the catalog's entries. -/
structure ClaimRouting where
  full : RoutingCatalog
  paused : String → Bool
  policy : JobRow → RoutingPolicy
  sizing : Dict String RouteLedger → JobRow → String → StoredRoute → Sizing
  entry : EligibleRoute → ClaimRoute

/-- The routes of a job are the eligible ones of the catalog without the paused
routes; its structural routes are those of the full catalog, without the size gate. -/
structure ClaimCatalog.RoutedBy (catalog : ClaimCatalog) (routing : ClaimRouting) : Prop where
  claimed : ∀ routes job, (catalog.routesEligibleFor routes job).Perm
    ((Dispatch.routesEligibleFor (routing.full.withoutPaused routing.paused) (routing.policy job) job
      (routing.sizing routes job) routing.full).map routing.entry)
  structural : ∀ routes job, catalog.structuralRoutesFor routes job =
    (Dispatch.routesEligibleFor routing.full (routing.policy job) job
      (skippingSizeGate (routing.sizing routes job)) routing.full).map routing.entry
  entry : ∀ route, (routing.entry route).catalog = route.stored.toCatalogRoute

section

variable {catalog : ClaimCatalog} {routing : ClaimRouting} {routes : Dict String RouteLedger}
  {job : JobRow} {route : ClaimRoute}

theorem ClaimCatalog.RoutedBy.subset (routed : catalog.RoutedBy routing) :
    catalog.routesEligibleFor routes job ⊆ catalog.structuralRoutesFor routes job := by
  rw [routed.structural]
  intro route member
  exact List.map_subset _ routesEligibleFor_subset ((routed.claimed routes job).subset member)

theorem ClaimCatalog.RoutedBy.running (routed : catalog.RoutedBy routing)
    (member : route ∈ catalog.structuralRoutesFor routes job) : route.catalog.rpd ≠ some 0 := by
  rw [routed.structural] at member
  obtain ⟨eligible, listed, rfl⟩ := List.mem_map.mp member
  rw [routed.entry]
  exact running_of_mem listed

end

namespace ClaimTurn

variable (turn : ClaimTurn) (job : JobRow)

def selected : Selection :=
  selectJobs turn.calendar turn.limits turn.catalog turn.call turn.state turn.bundleJobLimit

/-- The selection neither leases the job nor keeps it aside for the drain pass. -/
def Unplaced : Prop :=
  job.id ∉ chosenIds turn.selected.chosen ∧ job.id ∉ chosenIds turn.selected.drains

def permitted : List ClaimRoute := turn.catalog.structuralRoutesFor turn.state.routes job

def RefusedEverywhere : Prop :=
  ∀ route ∈ turn.permitted job,
    RefusesForGood turn.calendar turn.limits turn.catalog turn.call turn.state job route

/-- The route takes the job's size at the claim's time, and no limit on tokens is below it. -/
def HasRoom (route : ClaimRoute) : Prop :=
  exceedsCeilingAt turn.catalog turn.call turn.state job route turn.call.now = false ∧
    ¬ ExceedsTokens turn.limits turn.catalog turn.call turn.state job route

/-- The sizes learned by the wall clock say of the job what its size at the claim's
time and the limits on its tokens say. -/
def SizeDecides : Prop :=
  ((∀ route ∈ turn.permitted job, exceedsCeilingAt turn.catalog turn.call turn.state job route
      turn.call.wallClock = true) → ∀ route ∈ turn.permitted job, ¬ turn.HasRoom job route) ∧
    ((∃ route ∈ turn.permitted job, exceedsCeilingAt turn.catalog turn.call turn.state job route
      turn.call.wallClock = false) → ∃ route ∈ turn.permitted job, turn.HasRoom job route)

/-- The turn is one of a claim that selects, fails and leases jobs. -/
structure Dispatches (queuedDelta : ℤ) (before after : Coordinator) (reply : ClaimReply) :
    Prop where
  coherent : before.tables.Coherent
  touched : turn.state = touchLedgers turn.catalog turn.call before
  ranked : turn.catalog.rankModelsByCapacity turn.state = turn.earlier ++ turn.plan :: turn.later
  ran : dispatchJobs turn.calendar turn.limits turn.catalog turn.call turn.bundleJobLimit queuedDelta
    before = some (after, reply)

end ClaimTurn

section

variable {turn : ClaimTurn} {queuedDelta : ℤ} {before after : Coordinator} {reply : ClaimReply}
  {job : JobRow}

theorem ClaimTurn.Dispatches.offers (dispatches : turn.Dispatches queuedDelta before after reply)
    (examined : job ∈ turn.examined) : before.tables.Offers job := by
  have coherent : turn.state.tables.Coherent := dispatches.touched ▸ dispatches.coherent
  have offered := offers_of_examined coherent examined
  rwa [dispatches.touched] at offered

theorem ClaimTurn.Dispatches.judged (dispatches : turn.Dispatches queuedDelta before after reply)
    (examined : job ∈ turn.examined) :
    turn.selected.Judged turn.catalog turn.call turn.state job := by
  unfold ClaimTurn.selected selectJobs
  rw [dispatches.ranked, List.foldl_append, List.foldl_cons]
  refine List.foldlRecOn turn.later _ (examined_judged examined) fun selection judged plan _ => ?_
  exact offerModel_preserves (fun _ other judged => judged.offerJob other) judged plan

theorem ClaimTurn.Dispatches.fails_iff_exceeds
    (dispatches : turn.Dispatches queuedDelta before after reply) (examined : job ∈ turn.examined)
    (unplaced : turn.Unplaced job) :
    after.Fails job ↔
      exceedsEveryLiveCeiling turn.catalog turn.call turn.state job = true := by
  have explained : Selection.Explained turn.calendar turn.limits turn.catalog turn.call turn.state
      turn.selected := selectJobs_explained
  have sound : Selection.Sound turn.calendar turn.limits turn.catalog turn.call turn.state
      turn.selected := selectJobs_sound (dispatches.touched ▸ dispatches.coherent) _
  have offered := dispatches.offers examined
  rw [fails_iff dispatches.coherent offered dispatches.ran, ← dispatches.touched]
  constructor
  · intro member
    obtain ⟨failed, listed, same⟩ := List.mem_map.mp member
    have row := sound.oversizeRows failed listed
    rw [dispatches.touched] at row
    have equal : failed = job := JobTables.Offers.eq row offered same
    exact equal ▸ explained.oversize failed listed
  · intro above
    rcases dispatches.judged examined with chosen | drained | failed
    · exact absurd chosen unplaced.1
    · exact absurd drained unplaced.2
    · exact failed above

theorem ClaimTurn.Dispatches.placed (dispatches : turn.Dispatches queuedDelta before after reply)
    {routing : ClaimRouting} (routed : turn.catalog.RoutedBy routing)
    (examined : job ∈ turn.examined) (placed : ¬ turn.Unplaced job) :
    ¬ after.Fails job ∧ ¬ turn.RefusedEverywhere job := by
  have explained : Selection.Explained turn.calendar turn.limits turn.catalog turn.call turn.state
      turn.selected := selectJobs_explained
  have sound : Selection.Sound turn.calendar turn.limits turn.catalog turn.call turn.state
      turn.selected := selectJobs_sound (dispatches.touched ▸ dispatches.coherent) _
  have offered := dispatches.offers examined
  have listed : job.id ∈ chosenIds (turn.selected.chosen ++ turn.selected.drains) := by
    unfold ClaimTurn.Unplaced at placed
    rw [chosenIds, List.map_append, List.mem_append]
    exact or_iff_not_and_not.mpr placed
  obtain ⟨entry, member, same⟩ := List.mem_map.mp listed
  have row : before.tables.Offers entry.job := by
    have touched : turn.state.tables.Offers entry.job := by
      rcases List.mem_append.mp member with chosen | drained
      · exact sound.chosenRows entry chosen
      · exact sound.drainRows entry drained
    rwa [dispatches.touched] at touched
  have equal : entry.job = job := row.eq offered same
  constructor
  · rw [fails_iff dispatches.coherent offered dispatches.ran, ← dispatches.touched]
    intro failed
    obtain ⟨oversize, inside, named⟩ := List.mem_map.mp failed
    have apart := sound.apart oversize inside
    rw [named] at apart
    exact placed apart
  · intro refused
    obtain ⟨eligible, tolerance, taken⟩ := explained.taken entry member
    rw [equal] at eligible taken
    exact not_refusesForGood_of_fits taken (refused entry.route (routed.subset eligible))

end

/-- A route with a hundred tokens a day. -/
def dailyRoute : StoredRoute := { contextRoute 8192 with tpd := some 100 }

def dailyRouting : ClaimRouting where
  full :=
    { modelRoutesMap := [("model", ["route"])]
      routesById := [("route", dailyRoute)] }
  paused _ := false
  policy _ := { allowedModels := some [⟨"model", true⟩] }
  sizing _ _ _ _ := {}
  entry route :=
    { routeId := route.routeId, model := route.model, catalog := route.stored.toCatalogRoute }

def ClaimRouting.catalog (routing : ClaimRouting) : ClaimCatalog :=
  { refusingCatalog with
    routesEligibleFor := fun routes job =>
      (routesEligibleFor (routing.full.withoutPaused routing.paused) (routing.policy job) job
        (routing.sizing routes job) routing.full).map routing.entry
    structuralRoutesFor := fun routes job =>
      (routesEligibleFor routing.full (routing.policy job) job
        (skippingSizeGate (routing.sizing routes job)) routing.full).map routing.entry
    calibration := fun route _ => (calibrationFor { toCatalogRoute := route.catalog } {}).sizes }

theorem dailyRouting_routes : dailyRouting.catalog.RoutedBy dailyRouting :=
  ⟨fun _ _ => .refl _, fun _ _ => rfl, fun _ => rfl⟩

theorem dailyRouting_calibrated : dailyRouting.catalog.Calibrated :=
  fun _ _ => ⟨_, _, rfl, rfl⟩

def thirsty : Submission :=
  { laneJob "a" "tagger" with inputTokenEstimate := 150, maxOutputTokenEstimate := 50 }

def thirstyState : Coordinator := submittedState [thirsty]

def thirstyTurn : ClaimTurn where
  calendar := utcCalendar
  limits := oneByOne
  catalog := dailyRouting.catalog
  call := stuckCall none
  state := thirstyState
  bundleJobLimit := 4
  earlier := []
  plan := ⟨"model", false⟩
  later := []

theorem thirstyRow_isSome : (thirstyState.tables.jobs.get? "a").isSome = true := by
  decide +kernel

def thirstyRow : JobRow := (thirstyState.tables.jobs.get? "a").get thirstyRow_isSome

theorem thirstyRow_found : thirstyState.tables.jobs.get? "a" = some thirstyRow :=
  (Option.some_get thirstyRow_isSome).symm

/-- One job is stored. Its day is too small for it on its one route, and no ceiling is. -/
theorem thirstyTurn_evaluated : thirstyState.tables.jobs.keys = ["a"] ∧
    (thirstyTurn.permitted thirstyRow).length = 1 ∧
    (∀ route ∈ thirstyTurn.permitted thirstyRow, 0 < limitOf route.catalog.tpd ∧
      limitOf route.catalog.tpd < reservationFor route.catalog thirstyRow.sized
        (capacityOptions oneByOne dailyRouting.catalog (stuckCall none) thirstyState.providers route
          thirstyRow true)) ∧
    exceedsEveryLiveCeiling dailyRouting.catalog (stuckCall none) thirstyState thirstyRow = false ∧
    (candidatesOf thirstyState.tables.jobs none
      (thirstyState.tables.queue.scans "model").flatten).length = 1 := by
  decide +kernel

theorem thirstyRow_of_offers {job : JobRow} (offered : thirstyState.tables.Offers job) :
    job = thirstyRow := by
  have keys := thirstyTurn_evaluated.1
  have known : job.id ∈ thirstyState.tables.jobs.keys :=
    Dict.get?_isSome_iff_mem_keys.mp (by rw [offered.1]; rfl)
  rw [keys, List.mem_singleton] at known
  have found := offered.1
  rw [known, thirstyRow_found] at found
  exact (Option.some.inj found).symm

theorem thirstyTurn_served : thirstyTurn.permitted thirstyRow ≠ [] := by
  have one := thirstyTurn_evaluated.2.1
  intro none_
  rw [none_] at one
  cases one

/-- The only route of the job has a day that is too small for it. -/
theorem thirstyTurn_refused : thirstyTurn.RefusedEverywhere thirstyRow := by
  have above := thirstyTurn_evaluated.2.2.1
  intro route member
  exact (refusesForGood_iff dailyRouting_calibrated (dailyRouting_routes.running member)).mpr
    (.inr (.inl (above route member)))

theorem thirstyTurn_within :
    exceedsEveryLiveCeiling dailyRouting.catalog (stuckCall none) thirstyState thirstyRow = false :=
  thirstyTurn_evaluated.2.2.2.1

/-- Nothing is selected: the one queued job fits its one route at no time. -/
theorem thirstyTurn_selected : thirstyTurn.selected.chosen = [] ∧ thirstyTurn.selected.drains = [] ∧
    thirstyTurn.selected.oversize = [] := by
  have coherent : thirstyTurn.state.tables.Coherent := submittedState_coherent [thirsty]
  have sound : Selection.Sound utcCalendar oneByOne dailyRouting.catalog (stuckCall none)
      thirstyState thirstyTurn.selected := selectJobs_sound coherent 4
  have explained : Selection.Explained utcCalendar oneByOne dailyRouting.catalog (stuckCall none)
      thirstyState thirstyTurn.selected := selectJobs_explained
  have untaken (entry : Chosen) (offered : thirstyState.tables.Offers entry.job) :
      entry ∉ thirstyTurn.selected.chosen ++ thirstyTurn.selected.drains := by
    intro member
    obtain ⟨eligible, tolerance, taken⟩ := explained.taken entry member
    rw [thirstyRow_of_offers offered] at eligible taken
    exact not_refusesForGood_of_fits taken
      (thirstyTurn_refused entry.route (dailyRouting_routes.subset eligible))
  refine ⟨List.eq_nil_iff_forall_not_mem.mpr fun entry member => ?_,
    List.eq_nil_iff_forall_not_mem.mpr fun entry member => ?_,
    List.eq_nil_iff_forall_not_mem.mpr fun failed member => ?_⟩
  · exact untaken entry (sound.chosenRows entry member) (List.mem_append_left _ member)
  · exact untaken entry (sound.drainRows entry member) (List.mem_append_right _ member)
  · have above := explained.oversize failed member
    rw [thirstyRow_of_offers (sound.oversizeRows failed member), thirstyTurn_within] at above
    cases above

theorem thirstyTurn_unplaced : thirstyTurn.Unplaced thirstyRow := by
  obtain ⟨chosen, drains, _⟩ := thirstyTurn_selected
  rw [ClaimTurn.Unplaced, chosen, drains]
  exact ⟨List.not_mem_nil, List.not_mem_nil⟩

theorem thirstyTurn_examined : thirstyRow ∈ thirstyTurn.examined := by
  have coherent : thirstyState.tables.Coherent := submittedState_coherent [thirsty]
  have listed : (thirstyState.tables.positionsOf "model").length = 1 := by
    rw [JobTables.positionsOf, JobTables.queueOf, List.length_map, List.length_mergeSort]
    exact thirstyTurn_evaluated.2.2.2.2
  have one : (headOf oneByOne thirstyState ⟨"model", false⟩).length = 1 := by
    have read := congrArg List.length
      (@JobTables.Coherent.readCandidates_position _ "model" coherent none 1)
    rw [List.length_map, Option.map_none, Sweep.behind, List.filter_eq_self.mpr (by simp),
      List.length_take, listed] at read
    exact read
  obtain ⟨candidate, head⟩ := List.length_eq_one_iff.mp one
  have examined : candidate.job ∈ thirstyTurn.examined := by
    show candidate.job ∈ Dispatch.examined utcCalendar oneByOne dailyRouting.catalog (stuckCall none)
      thirstyState 4 {} ⟨"model", false⟩
    rw [examined, if_neg (by decide), head]
    refine List.mem_append_left _ ?_
    have unchosen : candidate.job.id ∉ chosenIds ({} : Selection).chosen := List.not_mem_nil
    rw [examinedJobs, if_neg (by decide), if_neg unchosen]
    exact List.mem_cons_self
  have same : candidate.job = thirstyRow :=
    thirstyRow_of_offers (offers_of_examined coherent examined)
  exact same ▸ examined

/-- The claim neither fails the job nor leases it. -/
theorem thirstyTurn_dispatches : ∃ after reply,
    thirstyTurn.Dispatches 0 thirstyState after reply := by
  obtain ⟨chosen, drains, oversize⟩ := thirstyTurn_selected
  have ran : ∃ claimed, dispatchJobs utcCalendar oneByOne dailyRouting.catalog (stuckCall none) 4 0
      thirstyState = some claimed := by
    have selected : selectJobs utcCalendar oneByOne dailyRouting.catalog (stuckCall none)
        (touchLedgers dailyRouting.catalog (stuckCall none) thirstyState) 4 =
          thirstyTurn.selected := rfl
    unfold dispatchJobs
    simp only [selected, oversize, List.foldlM_nil, Option.pure_def, Option.bind_some, drainPass,
      chosen, drains, List.isEmpty_nil, if_true, List.foldl_nil, leaseChosen]
    exact ⟨_, rfl⟩
  obtain ⟨⟨after, reply⟩, ran⟩ := ran
  exact ⟨after, reply, submittedState_coherent [thirsty], rfl, rfl, ran⟩

end CityPods.Dispatch
