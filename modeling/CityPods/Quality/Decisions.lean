import CityPods.Quality.Samples

/-! # Decisions are permanent

What every committed change of the ledger keeps of the samples, and from it what
any number of appends, reviews and scorings side by side keep.
-/

namespace CityPods.Quality

open Foundation
open Foundation.Objects (Forward Session Terms Touches)
open Foundation.Tasks (Config Event Run Reachable Worker Conduct)

variable (settings : Settings)

/-! ## The fields of a decided sample -/

def goldNames : List String := ["gold_text", "gold_source", "gold_role", "gold_collected_at"]

theorem freshGold_keys (review : Review) (evidence : Dict String PyVal) (clock : Int) :
    (freshGold settings review evidence clock).keys = goldNames := by
  unfold freshGold
  split
  · split
    · rfl
    · dsimp only
      split <;> rfl
  · dsimp only
    split <;> rfl
  · rfl

theorem goldFields_keys (review : Review) (evidence : Dict String PyVal) (clock : Int) :
    (goldFields settings review evidence clock).keys = goldNames ∨
      (goldFields settings review evidence clock).keys =
        goldNames ++ ["gold_ctc_fit_score", "gold_ctc_checked_at"] := by
  unfold goldFields
  dsimp only
  split
  · right
    rw [Dict.keys, List.map_append]
    exact congrArg (· ++ _) (freshGold_keys settings review evidence clock)
  · exact .inl (freshGold_keys settings review evidence clock)

theorem goldFields_nodup (review : Review) (evidence : Dict String PyVal) (clock : Int) :
    (goldFields settings review evidence clock).keys.Nodup := by
  rcases goldFields_keys settings review evidence clock with keys | keys <;>
    rw [keys] <;> decide

theorem get?_append (first second : Dict String PyVal) (name : String) :
    (first ++ second : Dict String PyVal).get? name = (first.get? name).or (second.get? name) := by
  induction first with
  | nil => rfl
  | cons entry rest induction =>
      obtain ⟨head, value⟩ := entry
      rw [List.cons_append, Dict.get?_cons, Dict.get?_cons, induction]
      split <;> rfl

variable {name : String}

theorem get?_goldFields (gold : name ∈ goldNames) (review : Review)
    (evidence : Dict String PyVal) (clock : Int) :
    (goldFields settings review evidence clock).get? name =
      (freshGold settings review evidence clock).get? name := by
  have known : ((freshGold settings review evidence clock).get? name).isSome = true := by
    rw [Dict.get?_isSome_iff_mem_keys, freshGold_keys]
    exact gold
  obtain ⟨value, found⟩ := Option.isSome_iff_exists.mp known
  unfold goldFields
  dsimp only
  split
  · rw [get?_append, found]
    rfl
  · rfl

def reviewNames : List String :=
  ["manual_decision", "timing_flags", "issue_number", "issue_url", "reviewed_at", "reviewed_by"]

theorem reviewFields_keys (review : Review) (clock : Int) :
    (reviewFields settings review clock).keys = reviewNames := rfl

theorem reviewFields_nodup (review : Review) (clock : Int) :
    (reviewFields settings review clock).keys.Nodup := by
  rw [reviewFields_keys]
  decide

/-- A review writes nothing else before the gold. -/
theorem field_reviewed (review : Review) (evidence : Dict String PyVal) (clock : Int)
    (other : name ∉ reviewNames) :
    field (evidence.update (reviewFields settings review clock)) name = field evidence name := by
  rw [field, Dict.get?_update (reviewFields_nodup settings review clock), Dict.get?_eq_none_iff.mpr other]
  rfl

theorem freshGold_reviewed (review : Review) (evidence : Dict String PyVal) (clock : Int) :
    freshGold settings review (evidence.update (reviewFields settings review clock)) clock =
      freshGold settings review evidence clock := by
  have same {name : String} (other : name ∉ reviewNames) :=
    field_reviewed settings review evidence clock other
  unfold freshGold providerText
  rw [same (show "pair_metrics" ∉ reviewNames by decide),
    same (show "blind_mapping" ∉ reviewNames by decide), same (show "metrics" ∉ reviewNames by decide)]

section

variable (review : Review) (evidence : Dict String PyVal) (clock : Int)

theorem field_withDecision (name : String) :
    field (withDecision settings review evidence clock) name =
      (((goldFields settings review
        (evidence.update (reviewFields settings review clock)) clock).get? name).or
          ((evidence.update (reviewFields settings review clock)).get? name)).getD .none := by
  rw [withDecision, field, Dict.get?_update (goldFields_nodup settings review _ clock)]

/-- What is neither gold nor a score is the review's or stays. -/
theorem field_withDecision_other
    (other : name ∉ goldNames ++ ["gold_ctc_fit_score", "gold_ctc_checked_at"]) :
    field (withDecision settings review evidence clock) name =
      field (evidence.update (reviewFields settings review clock)) name := by
  have absent : (goldFields settings review
      (evidence.update (reviewFields settings review clock)) clock).get? name = none := by
    rw [Dict.get?_eq_none_iff]
    rcases goldFields_keys settings review
      (evidence.update (reviewFields settings review clock)) clock with keys | keys <;> rw [keys]
    · exact fun member => other (List.mem_append_left _ member)
    · exact other
  rw [field_withDecision, absent]
  rfl

theorem field_withDecision_gold (gold : name ∈ goldNames) :
    field (withDecision settings review evidence clock) name =
      field (freshGold settings review evidence clock) name := by
  have known : ((freshGold settings review evidence clock).get? name).isSome = true := by
    rw [Dict.get?_isSome_iff_mem_keys, freshGold_keys]
    exact gold
  obtain ⟨value, found⟩ := Option.isSome_iff_exists.mp known
  rw [field_withDecision, get?_goldFields settings gold, freshGold_reviewed, field, found]
  rfl

theorem field_withDecision_score :
    (field (withDecision settings review evidence clock) "gold_ctc_fit_score" =
        field evidence "gold_ctc_fit_score" ∧
      field (withDecision settings review evidence clock) "gold_text" =
        field evidence "gold_text") ∨
      field (withDecision settings review evidence clock) "gold_ctc_fit_score" = .none := by
  have text : field (evidence.update (reviewFields settings review clock)) "gold_text" =
      field evidence "gold_text" := field_reviewed settings review evidence clock (by decide)
  have score : field (evidence.update (reviewFields settings review clock)) "gold_ctc_fit_score" =
      field evidence "gold_ctc_fit_score" := field_reviewed settings review evidence clock (by decide)
  have absent : (freshGold settings review
      (evidence.update (reviewFields settings review clock)) clock).get? "gold_ctc_fit_score" =
        none := by
    rw [Dict.get?_eq_none_iff, freshGold_keys]
    decide
  by_cases changed : field (freshGold settings review
      (evidence.update (reviewFields settings review clock)) clock) "gold_text" =
        field (evidence.update (reviewFields settings review clock)) "gold_text"
  · left
    constructor
    · rw [field_withDecision, goldFields, if_neg (not_not.mpr changed), absent]
      exact score
    · rw [field_withDecision_gold settings review evidence clock (by decide), ← text, ← changed,
        freshGold_reviewed]
  · right
    rw [field_withDecision, goldFields, if_pos changed, get?_append, absent]
    rfl

end

/-! ## What a change does to a sample -/

def Fits (text : String) (score : ℚ) : Prop :=
  ∃ audio clipStart clipEnd language,
    settings.ctcFit audio text clipStart clipEnd language = some score

def Call.Mutates (mutate : Int → List Row → Except Error (List Row)) : Call → Prop
  | .evaluateSample _ evaluation => mutate = fun _ rows => .ok (rows ++ [evaluation.pendingRow])
  | .ingestReviewDecision _ review => mutate = applyDecision settings review
  | .checkGoldCorrections _ => ∃ results : Dict String Update,
      (∀ scored ∈ results, Fits settings scored.2.expectedGoldText scored.2.goldCtcFitScore) ∧
        mutate = fun _ rows => .ok (applyScores results rows)

def Changes (call : Call) (rows after : List Row) : Prop :=
  ∃ mutate clock changed, call.Mutates settings mutate ∧ mutate clock rows = .ok changed ∧
    after = normalizeRollups (orRows changed rows)

structure Rescored (sample other : Dict String PyVal) : Prop where
  same : ∀ name, name ≠ "gold_ctc_fit_score" → name ≠ "gold_ctc_checked_at" →
    field other name = field sample name
  score : field other "gold_ctc_fit_score" = field sample "gold_ctc_fit_score" ∨
    ∃ text score, field sample "gold_text" = .str text ∧
      field other "gold_ctc_fit_score" = .num score ∧ Fits settings text score

inductive SampleStep (call : Call) (key : RowKey) (id : String) :
    Option PyVal → Option PyVal → Prop
  | same (sample : Option PyVal) : SampleStep call key id sample sample
  | appended (sample : Option PyVal) (evaluation : Evaluation)
      (unreviewed : sample.any isReviewed = false) :
      SampleStep call key id sample (some (.dict evaluation.sample))
  | decided (machine : Machine) (review : Review) (clock : Int) (evidence : Dict String PyVal)
      (ingests : call = .ingestReviewDecision machine review)
      (mine : key = review.key ∧ id = review.parsed.sampleId) :
      SampleStep call key id (some (.dict evidence))
        (some (.dict (withDecision settings review evidence clock)))
  | scored (sample other : Dict String PyVal) (rescored : Rescored settings sample other) :
      SampleStep call key id (some (.dict sample)) (some (.dict other))

theorem Rescored.refl (sample : Dict String PyVal) : Rescored settings sample sample :=
  ⟨fun _ _ _ => rfl, .inl rfl⟩

variable {settings}

theorem Rescored.trans {first second third : Dict String PyVal}
    (earlier : Rescored settings first second) (later : Rescored settings second third) :
    Rescored settings first third where
  same name score checked := (later.same name score checked).trans (earlier.same name score checked)
  score := by
    rcases later.score with same | ⟨text, score, stored, given, fits⟩
    · rw [same]
      exact earlier.score
    · refine .inr ⟨text, score, ?_, given, fits⟩
      rw [← earlier.same "gold_text" (by decide) (by decide)]
      exact stored

theorem field_set (sample : Dict String PyVal) (name other : String) (value : PyVal) :
    field (sample.set name value) other = if name = other then value else field sample other := by
  rw [field, Dict.get?_set]
  split <;> rfl

theorem rescored_stampSample {update : Update} (sample : Dict String PyVal)
    (fits : Fits settings update.expectedGoldText update.goldCtcFitScore) :
    Rescored settings sample (stampSample update sample) := by
  rw [stampSample]
  split
  · exact .refl settings sample
  · next current =>
    simp only [Bool.or_eq_true, decide_eq_true_eq, not_or, not_not] at current
    constructor
    · intro name score checked
      rw [field_set, if_neg (Ne.symm checked), field_set, if_neg (Ne.symm score)]
    · refine .inr ⟨update.expectedGoldText, update.goldCtcFitScore, current.1.2, ?_, fits⟩
      rw [field_set, if_neg (by decide), field_set, if_pos rfl]

theorem rescored_foldl {scores : List (String × Update)} (sample : Dict String PyVal)
    (fits : ∀ scored ∈ scores, Fits settings scored.2.expectedGoldText scored.2.goldCtcFitScore) :
    ∃ other, scores.foldl (fun value scored => value.map fun value => stampValue value scored.2)
      (some (.dict sample)) = some (.dict other) ∧ Rescored settings sample other := by
  induction scores generalizing sample with
  | nil => exact ⟨sample, rfl, .refl settings sample⟩
  | cons scored rest induction =>
      obtain ⟨other, folded, rescored⟩ := induction (stampSample scored.2 sample)
        fun scored member => fits scored (List.mem_cons_of_mem _ member)
      exact ⟨other, folded,
        (rescored_stampSample sample (fits scored List.mem_cons_self)).trans rescored⟩

variable {rows : List Row}

theorem Shaped.sampleAt_dict (shaped : Shaped rows) {key : RowKey} {id : String}
    {value : PyVal} (found : sampleAt rows key id = some value) : ∃ sample, value = .dict sample := by
  obtain ⟨row, there, within⟩ := Option.bind_eq_some_iff.mp found
  exact shaped.samples row (List.mem_of_find?_eq_some there) _ (Dict.get?_eq_some_mem within)

theorem orRows_eq {changed : List Row} (whole : changed = [] → rows = []) :
    orRows changed rows = changed := by
  cases changed with
  | nil => exact whole rfl
  | cons row rest => rfl

variable {call : Call} {after : List Row}

theorem Changes.sampleStep (shaped : Shaped rows)
    (changes : Changes settings call rows after) (key : RowKey) (id : String) :
    SampleStep settings call key id (sampleAt rows key id) (sampleAt after key id) := by
  obtain ⟨mutate, clock, changed, mutates, applied, rfl⟩ := changes
  cases call with
  | evaluateSample machine evaluation =>
      cases mutates
      cases applied
      rw [orRows_eq fun empty => absurd empty (List.append_ne_nil_of_right_ne_nil _ (by simp))]
      rcases sampleAt_append_pending shaped evaluation key id with same | ⟨fresh, appended⟩
      · rw [same]
        exact .same _
      · rw [appended]
        exact .appended _ evaluation fresh
  | ingestReviewDecision machine review =>
      cases mutates
      have inShape := shaped_applyDecision shaped applied
      obtain ⟨evidence, found, others⟩ := sampleAt_applyDecision shaped applied
      have whole : orRows changed rows = changed := orRows_eq fun empty => by
        obtain ⟨before, row, later, _, _, _, _, written⟩ := applyDecision_ok applied
        rw [empty] at written
        exact absurd written.symm (List.append_ne_nil_of_right_ne_nil _ (List.cons_ne_nil _ _))
      rw [whole, inShape.sampleAt_normalize, others]
      split
      · next mine =>
        obtain ⟨rfl, rfl⟩ := mine
        rw [found]
        exact .decided machine review clock evidence rfl ⟨rfl, rfl⟩
      · exact .same _
  | checkGoldCorrections machine =>
      obtain ⟨results, fits, rfl⟩ := mutates
      cases applied
      have whole : orRows (applyScores results rows) rows = applyScores results rows :=
        orRows_eq fun empty => List.map_eq_nil_iff.mp empty
      rw [whole, (shaped_applyScores shaped results).sampleAt_normalize, sampleAt_applyScores]
      cases found : sampleAt rows key id with
      | none =>
          have nothing : (results.filter fun scored => scored.1 = id).foldl
              (fun value scored => value.map fun value => stampValue value scored.2) none =
                (none : Option PyVal) := by
            induction results.filter fun scored => scored.1 = id with
            | nil => rfl
            | cons scored rest induction => exact induction
          rw [nothing]
          exact .same _
      | some value =>
          obtain ⟨sample, rfl⟩ := shaped.sampleAt_dict found
          obtain ⟨other, folded, rescored⟩ : ∃ other, _ = some (PyVal.dict other) ∧
              Rescored settings sample other :=
            rescored_foldl sample fun scored member => fits scored (List.mem_of_mem_filter member)
          rw [folded]
          exact .scored sample other rescored

/-! ## What a change keeps -/

def decisionNames : List String := ["manual_decision", "timing_flags", "gold_text", "gold_source"]

/-- The sample has this decision: outcome, flags, gold text and its source. -/
def Carries (rows : List Row) (key : RowKey) (id : String) (decision : List PyVal) : Prop :=
  ∃ sample, sampleAt rows key id = some (.dict sample) ∧ decisionNames.map (field sample) = decision

def Scored (settings : Settings) (rows : List Row) : Prop :=
  ∀ key id sample, sampleAt rows key id = some (.dict sample) →
    field sample "gold_ctc_fit_score" ≠ .none →
      ∃ text score, field sample "gold_text" = .str text ∧
        field sample "gold_ctc_fit_score" = .num score ∧ Fits settings text score

section

variable {call : Call} {key : RowKey} {id : String} {before after : Option PyVal}

theorem SampleStep.isSome (step : SampleStep settings call key id before after)
    (present : before.isSome = true) : after.isSome = true := by
  cases step with
  | same => exact present
  | appended => rfl
  | decided => rfl
  | scored => rfl

theorem SampleStep.carries {sample : Dict String PyVal} {decision : List PyVal}
    (step : SampleStep settings call key id before after)
    (found : before = some (.dict sample)) (carried : decisionNames.map (field sample) = decision)
    (reviewed : (field sample "manual_decision").truthy = true)
    (other : ∀ machine review, call = .ingestReviewDecision machine review →
      ¬ (key = review.key ∧ id = review.parsed.sampleId)) :
    ∃ kept, after = some (.dict kept) ∧ decisionNames.map (field kept) = decision := by
  cases step with
  | same => exact ⟨sample, found, carried⟩
  | appended _ evaluation unreviewed =>
      have still : (some (PyVal.dict sample)).any isReviewed = true := reviewed
      rw [found, still] at unreviewed
      cases unreviewed
  | decided machine review clock evidence ingests mine => exact absurd mine (other _ _ ingests)
  | scored old new rescored =>
      cases found
      refine ⟨new, rfl, carried ▸ List.map_congr_left fun name member => ?_⟩
      refine rescored.same name ?_ ?_ <;> rintro rfl <;> exact absurd member (by decide)

theorem SampleStep.scored_kept (step : SampleStep settings call key id before after)
    (scored : ∀ sample, before = some (.dict sample) → field sample "gold_ctc_fit_score" ≠ .none →
      ∃ text score, field sample "gold_text" = .str text ∧
        field sample "gold_ctc_fit_score" = .num score ∧ Fits settings text score)
    (sample : Dict String PyVal) (found : after = some (.dict sample))
    (given : field sample "gold_ctc_fit_score" ≠ .none) :
    ∃ text score, field sample "gold_text" = .str text ∧
      field sample "gold_ctc_fit_score" = .num score ∧ Fits settings text score := by
  cases step with
  | same => exact scored sample found given
  | appended _ evaluation unreviewed =>
      cases found
      exact absurd rfl given
  | decided machine review clock evidence ingests mine =>
      cases found
      rcases field_withDecision_score settings review evidence clock with ⟨score, text⟩ | gone
      · rw [score] at given ⊢
        rw [text]
        exact scored evidence rfl given
      · exact absurd gone given
  | scored old new rescored =>
      cases found
      have text := rescored.same "gold_text" (by decide) (by decide)
      rcases rescored.score with same | fresh
      · rw [same] at given ⊢
        rw [text]
        exact scored old rfl given
      · rw [text]
        exact fresh

end

theorem Changes.scored (shaped : Shaped rows)
    (changes : Changes settings call rows after) (scored : Scored settings rows) :
    Scored settings after := by
  intro key id sample found given
  exact (changes.sampleStep shaped key id).scored_kept
    (fun sample found given => scored key id sample found given) sample found given

/-! ## Every call is safe -/

theorem mem_scoreRows {machine : Machine} {clock : Int}
    {scored : String × Update} (member : scored ∈ scoreRows settings machine clock rows) :
    Fits settings scored.2.expectedGoldText scored.2.goldCtcFitScore := by
  have within : scored ∈ rows.flatMap (scoreRow settings machine clock) :=
    (Dict.mem_update member).resolve_left List.not_mem_nil
  obtain ⟨row, _, among⟩ := List.mem_flatMap.mp within
  rw [scoreRow] at among
  split at among
  · cases among
  · next language _ =>
    obtain ⟨sample, _, found⟩ := List.mem_filterMap.mp among
    obtain ⟨evidence, _, given⟩ := Option.bind_eq_some_iff.mp found
    unfold scoreSample at given
    dsimp only at given
    repeat' split at given
    all_goals first | cases given | skip
    obtain ⟨score, fits, rfl⟩ := Option.map_eq_some_iff.mp given
    exact ⟨_, _, _, _, fits⟩

def Call.machine : Call → Machine
  | .evaluateSample machine _ => machine
  | .ingestReviewDecision machine _ => machine
  | .checkGoldCorrections machine => machine

/-- A call writes copies, and over the ledger what it makes of it. -/
def Call.terms (settings : Settings) (call : Call) : Terms String Body Int where
  rely := Forward
  rely_refl := Forward.refl
  rely_trans := Forward.trans
  permits state key value := key = mirrorKey ∨ key = ledgerKey ∧ ∃ rows, value = .ledger rows ∧
    Changes settings call (currentRows call.machine.rollups (state.object ledgerKey)) rows

section

variable (call : Call) {mutate : Int → List Row → Except Error (List Row)}
  {state : Objects.State String Body Int}

theorem writeRollupMirror_safe (rows : List Row) :
    (writeRollupMirror rows).Safe (call.terms settings) (fun _ _ => True) state := by
  refine Session.safe_tryPut (fun later _ _ => ?_) (fun _ _ _ => ?_) fun _ _ => ?_
  · exact ⟨.inl rfl, Session.safe_pure fun _ _ => trivial⟩
  · exact Session.safe_pure fun _ _ => trivial
  · exact Session.safe_pure fun _ _ => trivial

theorem mutateRollupsLedger_safe (mutates : call.Mutates settings mutate) (attempts : Nat)
    (fresh : state.store.Fresh) :
    (mutateRollupsLedger call.machine.rollups mutate attempts).Safe (call.terms settings)
      (fun _ _ => True) state := by
  induction attempts generalizing state with
  | zero => exact Session.safe_throw fun _ _ => trivial
  | succ attempts induction =>
      refine Session.safe_getBytes (fun later passed => ?_) fun _ _ => trivial
      refine Session.safe_now fun middle waited => ?_
      dsimp only
      cases applied : mutate middle.clock
          (currentRows call.machine.rollups (later.object ledgerKey)) with
      | error error => exact Session.safe_throw fun _ _ => trivial
      | ok changed =>
          have read : Forward later middle := (Forward.noted later _).trans waited
          refine Session.safe_tryPut (fun last more admitted => ?_) (fun last more _ => ?_)
            fun _ _ => ?_
          · have current := (read.trans more).admits_writeCondition (passed.fresh fresh) admitted
            refine ⟨.inr ⟨rfl, _, rfl, mutate, middle.clock, changed, mutates, ?_, ?_⟩,
              writeRollupMirror_safe call _⟩
            · rw [current]
              exact applied
            · rw [current]
          · exact induction ((passed.trans (read.trans more)).fresh fresh)
          · exact Session.safe_throw fun _ _ => trivial

theorem loadRollupsLedger_safe (machine : Machine) (fresh : state.store.Fresh) :
    (loadRollupsLedger machine).Safe (call.terms settings) (fun _ later => later.store.Fresh)
      state := by
  refine Raising.safe_tried fun later passed choice reply after _ answered => ?_
  have now := passed.fresh fresh
  rcases Objects.answer_get answered with ⟨rfl, rfl⟩ | ⟨rfl, rfl⟩
  · refine ⟨.read ledgerKey, ?_⟩
    cases later.object ledgerKey with
    | none => exact Session.safe_pure fun last more => more.fresh now
    | some found => exact Session.safe_pure fun last more => more.fresh now
  · exact ⟨.same, Session.safe_pure fun last more => more.fresh now⟩

theorem scoreLedger_safe (machine : Machine) (rows : List Row) (fresh : state.store.Fresh) :
    (scoreLedger settings machine rows).Safe
      ((Call.checkGoldCorrections machine).terms settings) (fun _ _ => True) state := by
  refine Session.safe_now fun later passed => ?_
  dsimp only
  split
  · exact Session.safe_pure fun _ _ => trivial
  · exact mutateRollupsLedger_safe (.checkGoldCorrections machine)
      ⟨_, fun scored member => mem_scoreRows member, rfl⟩ maxAttempts (passed.fresh fresh)

theorem Call.safe (fresh : state.store.Fresh) :
    (call.session settings).Safe (call.terms settings) (fun _ _ => True) state := by
  cases call with
  | evaluateSample machine evaluation =>
      exact mutateRollupsLedger_safe (.evaluateSample machine evaluation) rfl maxAttempts fresh
  | ingestReviewDecision machine review =>
      exact mutateRollupsLedger_safe (.ingestReviewDecision machine review) rfl maxAttempts fresh
  | checkGoldCorrections machine =>
      refine (loadRollupsLedger_safe (.checkGoldCorrections machine) machine fresh).bind ?_ ?_
      · exact fun rows later now => scoreLedger_safe machine rows now
      · exact fun _ _ _ _ _ => trivial

end

/-! ## Runs -/

def conduct (settings : Settings) : Conduct (reviews settings) where
  bargain call := (call.terms settings).bargain
  promise _ _ _ _ := True

theorem conduct_sound {allowed : Config (reviews settings) → Event (reviews settings) → Prop}
    {initial : Config (reviews settings)} (base : initial.workers = [])
    (fresh : initial.state.store.Fresh) : (conduct settings).Sound allowed initial where
  base := base
  drifted _ _ _ _ _ drifted _ _ := .inl (.drift drifted)
  started _ call run _ _ := call.safe ((Forward.run run).fresh fresh)
  assumed _ _ _ _ _ _ _ _ _ := trivial
  apart _ _ _ _ _ _ _ _ _ _ _ _ _ _ _ _ _ touches := .inl (Touches.forward touches)

def Stored (config : Config (reviews settings)) (rows : List Row) : Prop :=
  ∃ etag, config.state.object ledgerKey = some (.ledger rows, etag)

/-- The rows are as the code writes them. -/
structure Valid (settings : Settings) (rows : List Row) : Prop where
  shaped : Shaped rows
  summarized : Summarized rows
  scored : Scored settings rows

def Ingests (config : Config (reviews settings)) (event : Event (reviews settings))
    (review : Review) : Prop :=
  ∃ index choice machine task after, event = .run index choice ∧
    config.workers[index]? = some ⟨.ingestReviewDecision machine review, task⟩ ∧
    config.step event = some after ∧
    after.state.object ledgerKey ≠ config.state.object ledgerKey

def Review.decision (settings : Settings) (review : Review) (evidence : Dict String PyVal)
    (clock : Int) : List PyVal := [
  .str review.parsed.manualDecision.text,
  .list (review.parsed.timingFlags.map fun flag => .str flag.text),
  field (freshGold settings review evidence clock) "gold_text",
  field (freshGold settings review evidence clock) "gold_source"]

theorem decision_withDecision (review : Review) (evidence : Dict String PyVal) (clock : Int) :
    decisionNames.map (field (withDecision settings review evidence clock)) =
      review.decision settings evidence clock := by
  have own {name : String} (mine : name ∈ reviewNames) :
      field (evidence.update (reviewFields settings review clock)) name =
        field (reviewFields settings review clock) name := by
    have known : ((reviewFields settings review clock).get? name).isSome = true :=
      Dict.get?_isSome_iff_mem_keys.mpr mine
    obtain ⟨value, found⟩ := Option.isSome_iff_exists.mp known
    rw [field, Dict.get?_update (reviewFields_nodup settings review clock), field, found]
    rfl
  have outcome := field_withDecision_other settings review evidence clock
    (show "manual_decision" ∉ _ by decide)
  have flags := field_withDecision_other settings review evidence clock
    (show "timing_flags" ∉ _ by decide)
  have text := field_withDecision_gold settings review evidence clock
    (show "gold_text" ∈ goldNames by decide)
  have source := field_withDecision_gold settings review evidence clock
    (show "gold_source" ∈ goldNames by decide)
  rw [own (by decide)] at outcome flags
  simp only [decisionNames, List.map_cons, List.map_nil, outcome, flags, text, source]
  rfl

section

variable {allowed : Config (reviews settings) → Event (reviews settings) → Prop}
  {initial config after : Config (reviews settings)} {event : Event (reviews settings)}
  {rows : List Row}

theorem Stored.of_eq (stored : Stored config rows)
    (same : after.state.object ledgerKey = config.state.object ledgerKey) : Stored after rows := by
  obtain ⟨etag, present⟩ := stored
  exact ⟨etag, same.trans present⟩

/-- A step leaves the ledger, or commits what its call makes of it. -/
theorem ledger_moves (base : initial.workers = []) (fresh : initial.state.store.Fresh)
    (run : Run allowed initial config) (permitted : allowed config event)
    (stepped : config.step event = some after) :
    after.state.object ledgerKey = config.state.object ledgerKey ∨
      ∃ index choice worker next, event = .run index choice ∧
        config.workers[index]? = some worker ∧ Stored after next ∧
        Changes settings worker.call
          (currentRows worker.call.machine.rollups (config.state.object ledgerKey)) next := by
  have sound : (conduct settings).Sound allowed initial := conduct_sound base fresh
  cases Config.step_moves stepped with
  | drift choice state drifted =>
      cases choice with
      | tick clock =>
          obtain ⟨_, moved⟩ := Option.ite_none_right_eq_some.mp drifted
          cases moved
          exact .inl rfl
      | works => cases drifted
      | fails => cases drifted
  | start call mayStart => exact .inl rfl
  | run index choice call op next present reply state answered =>
      have touches := ((sound.kept run).performs sound run permitted present answered).1
      cases touches with
      | same => exact .inl rfl
      | read => exact .inl rfl
      | put key value written =>
          rcases written with rfl | ⟨rfl, rows, rfl, changes⟩
          · exact .inl (Store.put_object_other _ _ (by decide))
          · exact .inr ⟨index, choice, _, rows, rfl, present, ⟨_, Store.put_object_same _ _ _⟩, changes⟩
  | kill index => exact .inl rfl

theorem currentRows_of_stored (stored : Stored config rows) (rollups : List Row) :
    currentRows rollups (config.state.object ledgerKey) = normalizeRollups rows := by
  obtain ⟨etag, present⟩ := stored
  rw [present]
  rfl

variable {next : List Row}

theorem Changes.valid (valid : Valid settings rows)
    (changes : Changes settings call (normalizeRollups rows) next) : Valid settings next := by
  have scored : Scored settings (normalizeRollups rows) := by
    intro key id sample found
    rw [valid.shaped.sampleAt_normalize] at found
    exact valid.scored key id sample found
  have after := changes.scored (shaped_normalize rows) scored
  obtain ⟨mutate, clock, changed, _, _, rfl⟩ := changes
  exact ⟨shaped_normalize _, summarized_normalize _, after⟩

theorem Changes.sampleStep_of_valid (valid : Valid settings rows)
    (changes : Changes settings call (normalizeRollups rows) next) (key : RowKey) (id : String) :
    SampleStep settings call key id (sampleAt rows key id) (sampleAt next key id) := by
  have step := changes.sampleStep (shaped_normalize rows) key id
  rwa [valid.shaped.sampleAt_normalize] at step

theorem stored_moves (base : initial.workers = []) (fresh : initial.state.store.Fresh)
    (run : Run allowed initial config) (permitted : allowed config event)
    (stepped : config.step event = some after) (stored : Stored config rows)
    (valid : Valid settings rows) : ∃ next, Stored after next ∧ Valid settings next ∧
      ((next = rows ∧ after.state.object ledgerKey = config.state.object ledgerKey) ∨
        ∃ index choice worker, event = .run index choice ∧
          config.workers[index]? = some worker ∧
          after.state.object ledgerKey ≠ config.state.object ledgerKey ∧
          Changes settings worker.call (normalizeRollups rows) next) := by
  by_cases same : after.state.object ledgerKey = config.state.object ledgerKey
  · exact ⟨rows, stored.of_eq same, valid, .inl ⟨rfl, same⟩⟩
  · obtain ⟨index, choice, worker, next, started, present, written, changes⟩ :=
      (ledger_moves base fresh run permitted stepped).resolve_left same
    rw [currentRows_of_stored stored] at changes
    exact ⟨next, written, changes.valid valid,
      .inr ⟨index, choice, worker, started, present, same, changes⟩⟩

theorem stored_of_run (base : initial.workers = []) (fresh : initial.state.store.Fresh)
    (stored : Stored initial rows) (valid : Valid settings rows) (run : Run allowed initial config) :
    ∃ current, Stored config current ∧ Valid settings current := by
  induction run with
  | refl => exact ⟨rows, stored, valid⟩
  | step run event permitted stepped induction =>
      obtain ⟨current, stored, valid⟩ := induction
      obtain ⟨next, written, kept, _⟩ := stored_moves base fresh run permitted stepped stored valid
      exact ⟨next, written, kept⟩

/-- No step commits another review of the sample. -/
def NoReview (key : RowKey) (id : String) (config : Config (reviews settings))
    (event : Event (reviews settings)) : Prop :=
  ∀ review, Ingests config event review → ¬ (key = review.key ∧ id = review.parsed.sampleId)

/-- A decision stays until another one of the sample is committed. -/
theorem carries_of_run {middle last : Config (reviews settings)} {key : RowKey} {id : String}
    {decision : List PyVal} (base : initial.workers = []) (fresh : initial.state.store.Fresh)
    (run : Reachable initial middle) (stored : Stored middle rows) (valid : Valid settings rows)
    (carries : Carries rows key id decision) (reviewed : (decision.headD .none).truthy = true)
    (later : Run (NoReview key id) middle last) :
    ∃ current, Stored last current ∧ Valid settings current ∧ Carries current key id decision := by
  induction later with
  | refl => exact ⟨rows, stored, valid, carries⟩
  | step between event permitted stepped induction =>
      obtain ⟨current, stored, valid, sample, found, carried⟩ := induction
      have reached := run.trans (between.weaken fun _ _ _ => trivial)
      obtain ⟨next, written, kept, ⟨rfl, _⟩ |
        ⟨index, choice, worker, started, present, changed, changes⟩⟩ :=
        stored_moves base fresh reached trivial stepped stored valid
      · exact ⟨next, written, kept, sample, found, carried⟩
      · refine ⟨next, written, kept, ?_⟩
        have step := changes.sampleStep_of_valid valid key id
        have decided : (field sample "manual_decision").truthy = true := by
          rw [← carried] at reviewed
          exact reviewed
        refine step.carries found carried decided fun machine review ingests => ?_
        obtain ⟨call, task⟩ := worker
        cases ingests
        exact permitted review ⟨index, choice, machine, task, _, started, present, stepped, changed⟩

variable {review : Review}

theorem Changes.decided {machine : Machine} (shaped : Shaped rows)
    (changes : Changes settings (.ingestReviewDecision machine review) rows next) :
    ∃ evidence clock, sampleAt rows review.key review.parsed.sampleId = some (.dict evidence) ∧
      sampleAt next review.key review.parsed.sampleId =
        some (.dict (withDecision settings review evidence clock)) := by
  obtain ⟨mutate, clock, changed, mutates, applied, rfl⟩ := changes
  cases mutates
  obtain ⟨evidence, found, others⟩ := sampleAt_applyDecision shaped applied
  refine ⟨evidence, clock, found, ?_⟩
  have whole : orRows changed rows = changed := orRows_eq fun empty => by
    obtain ⟨before, row, later, _, _, _, _, written⟩ := applyDecision_ok applied
    rw [empty] at written
    exact absurd written.symm (List.append_ne_nil_of_right_ne_nil _ (List.cons_ne_nil _ _))
  rw [whole, (shaped_applyDecision shaped applied).sampleAt_normalize, others, if_pos ⟨rfl, rfl⟩]

theorem decided_of_ingests (base : initial.workers = []) (fresh : initial.state.store.Fresh)
    (run : Run allowed initial config) (permitted : allowed config event)
    (stepped : config.step event = some after) (stored : Stored config rows)
    (valid : Valid settings rows) (ingests : Ingests config event review) :
    ∃ evidence clock next,
      sampleAt rows review.key review.parsed.sampleId = some (.dict evidence) ∧
      Stored after next ∧ Valid settings next ∧
        Carries next review.key review.parsed.sampleId (review.decision settings evidence clock) := by
  obtain ⟨index, choice, machine, task, there, rfl, present, reached, changed⟩ := ingests
  cases stepped.symm.trans reached
  obtain ⟨next, written, kept, ⟨_, same⟩ | ⟨place, _, worker, started, found, _, changes⟩⟩ :=
    stored_moves base fresh run permitted stepped stored valid
  · exact absurd same changed
  · cases started
    cases present.symm.trans found
    obtain ⟨evidence, clock, before, decided⟩ := changes.decided (shaped_normalize rows)
    rw [valid.shaped.sampleAt_normalize] at before
    exact ⟨evidence, clock, next, before, written, kept, _, decided, decision_withDecision _ _ _⟩

end

def start (store : Store String Body) (clock : Int) : Config (reviews settings) where
  state := { store := store, clock := clock }
  workers := []

/-- In every run over a valid ledger: the ledger stays one whose summaries count
its evidence and whose scores are of the gold texts beside them, no sample goes,
and a sample has the decision of the last review that was committed for it. -/
theorem decisions_permanent {store : Store String Body} {clock : Int} {rows : List Row}
    {etag : ETag} {config : Config (reviews settings)} (fresh : store.Fresh)
    (present : store.object ledgerKey = some (.ledger rows, etag)) (valid : Valid settings rows)
    (run : Reachable (start store clock) config) :
    ∃ current, Stored config current ∧ Summarized current ∧ Scored settings current ∧
      (∀ event after, config.step event = some after → ∃ next, Stored after next ∧
        ∀ key id, (sampleAt current key id).isSome = true → (sampleAt next key id).isSome = true) ∧
      ∀ event after review, config.step event = some after → Ingests config event review →
        ∃ evidence clock,
          sampleAt current review.key review.parsed.sampleId = some (.dict evidence) ∧
          ∀ last, Run (NoReview review.key review.parsed.sampleId) after last →
            ∃ later, Stored last later ∧ Carries later review.key review.parsed.sampleId
              (review.decision settings evidence clock) := by
  have initially : Stored (start store clock : Config (reviews settings)) rows := ⟨etag, present⟩
  obtain ⟨current, stored, sound⟩ := stored_of_run rfl fresh initially valid run
  refine ⟨current, stored, sound.summarized, sound.scored, ?_, ?_⟩
  · intro event after stepped
    obtain ⟨next, written, _, ⟨rfl, _⟩ | ⟨_, _, _, _, _, _, changes⟩⟩ :=
      stored_moves rfl fresh run trivial stepped stored sound
    · exact ⟨next, written, fun _ _ => id⟩
    · exact ⟨next, written, fun key id => (changes.sampleStep_of_valid sound key id).isSome⟩
  · intro event after review stepped ingests
    obtain ⟨evidence, clock, next, found, written, kept, carries⟩ :=
      decided_of_ingests rfl fresh run trivial stepped stored sound ingests
    refine ⟨evidence, clock, found, fun last later => ?_⟩
    have reached : Reachable (start store _) after := .step run event trivial stepped
    have reviewed : ((review.decision settings evidence clock).headD .none).truthy = true := by
      show (PyVal.str review.parsed.manualDecision.text).truthy = true
      cases review.parsed.manualDecision <;> decide
    obtain ⟨rows, stored, _, carries⟩ :=
      carries_of_run rfl fresh reached written kept carries reviewed later
    exact ⟨rows, stored, carries⟩

/-! ## A correction is ingested -/

def plain : Settings where
  isoformat _ := "1970-01-01T00:00:00+00:00"
  ctcFit _ _ _ _ _ := none

def evaluation : Evaluation where
  sourceKey := "source"
  bodyKey := "council"
  bodyName := "Council"
  productionDefault := "provider-align"
  acceptedActiveRecipes := []
  minimumQualityRank := none
  sampleId := "sample"
  sampledAt := "1970-01-01T00:00:00+00:00"
  episodeUid := "episode"
  episodeTitle := .none
  providerSourceMode := .none
  reviewPage := .none
  clipStart := 0
  clipEnd := 30
  metrics := []
  pairMetrics := []
  autoOutcome := "tie"
  autoMargin := 0
  needsReview := true
  blindMapping := []
  l2Used := false

def correction : Review where
  parsed := ⟨"source", "council", "sample", .neither, [], "what was said"⟩
  issueNumber := 1
  issueUrl := ""
  actor := "reviewer"
  goldAgreementFloor := 9 / 10

def sampled : List Row := normalizeRollups [evaluation.pendingRow]

theorem valid_sampled : Valid plain sampled := by
  refine ⟨shaped_normalize _, summarized_normalize _, ?_⟩
  intro key id sample found given
  have empty : Shaped [] := ⟨List.nodup_nil, nofun, nofun, nofun⟩
  rcases sampleAt_append_pending empty evaluation key id with same | ⟨_, appended⟩
  · cases found.symm.trans same
  · cases found.symm.trans appended
    exact absurd rfl given

def reviewed : Store String Body := Store.empty.put ledgerKey (.ledger sampled)

def bare : Machine := ⟨[], [], fun _ _ => none⟩

def ingesting : Config (reviews plain) where
  state := { store := reviewed, clock := 0 }
  workers := [⟨.ingestReviewDecision bare correction,
    ((Call.ingestReviewDecision bare correction).session plain).run⟩]

theorem decisions_permanent_corrected : ∃ config : Config (reviews plain),
    Reachable (start reviewed 0) config ∧ ∃ current, Stored config current ∧
      Carries current correction.key "sample"
        [.str "neither", .list [], .str "what was said", .str "reviewer_correction"] := by
  have begun : Reachable (start reviewed 0) ingesting :=
    .step .refl (.start (.ingestReviewDecision bare correction)) trivial rfl
  obtain ⟨config, after, executed, stepped, ingests⟩ :
      ∃ config after : Config (reviews plain),
        ingesting.execute (fun _ _ => true) [.run 0 .works, .run 0 .works] = some config ∧
        config.step (.run 0 .works) = some after ∧
          Ingests config (.run 0 .works) correction := by
    refine ⟨_, _, rfl, rfl, 0, .works, bare, _, _, rfl, rfl, rfl, fun same => ?_⟩
    cases congrArg (Option.map Prod.snd) same
  have run := begun.trans (Reachable.of_execute executed)
  obtain ⟨_, _, _, _, _, decides⟩ :=
    decisions_permanent (Store.empty_fresh.put _ _) (Store.put_object_same _ _ _) valid_sampled run
  obtain ⟨evidence, clock, _, carried⟩ := decides _ after correction stepped ingests
  obtain ⟨current, stored, carries⟩ := carried after .refl
  exact ⟨after, run.trans (.step .refl _ trivial stepped), current, stored, carries⟩

end CityPods.Quality
