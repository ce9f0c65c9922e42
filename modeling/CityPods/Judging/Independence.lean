import CityPods.Judging.Addressees

/-! # Independent adjudicators

An adjudicator shares no family with the producers, nor with the first sibling on record.
The sibling whose value is compared may be another one.
-/

namespace CityPods.Judging

open Foundation Ledger

/-! ## The value that is compared -/

def newestOfHighest (rows : List Row) : Option Row :=
  ((rows.map fun row => row.key.contextTier).argmax ContextTier.rank).bind fun tier =>
    (rows.filter fun row => row.key.contextTier = tier).getLast?

theorem argmax_eq_of_mem_iff {α : Type} {rank : α → Nat} (injective : Function.Injective rank)
    {items others : List α} (same : ∀ item, item ∈ items ↔ item ∈ others) :
    items.argmax rank = others.argmax rank := by
  cases first : items.argmax rank with
  | none =>
      have empty := List.argmax_eq_none.mp first
      have none : others = [] := List.eq_nil_iff_forall_not_mem.mpr fun item member => by
        simpa [empty] using (same item).mpr member
      rw [none]
      rfl
  | some item =>
      cases second : others.argmax rank with
      | none =>
          have empty := List.argmax_eq_none.mp second
          simpa [empty] using (same item).mp (List.argmax_mem first)
      | some other =>
          have below := List.le_of_mem_argmax ((same item).mp (List.argmax_mem first)) second
          have above := List.le_of_mem_argmax ((same other).mpr (List.argmax_mem second)) first
          rw [injective (le_antisymm below above)]

theorem highest_byTier (stores : Stores) (subject : Subject) (questionId : String)
    (role : JudgeRole) (model : Option String) :
    highest (byTier stores subject questionId role model) =
      (newestOfHighest ((judgments stores subject).filter
        (Row.votes questionId role model))).map Row.value := by
  unfold byTier
  generalize (judgments stores subject).filter (Row.votes questionId role model) = rows
  have found : ∀ tier, (rows.foldl (fun found row => Dict.set found row.key.contextTier row.value)
      ([] : Dict ContextTier PyVal)).get? tier =
        ((rows.filter fun row => row.key.contextTier = tier).getLast?).map Row.value := by
    intro tier
    rw [Dict.get?_foldl_set, Dict.get?_nil, Option.or_none]
  have tiers : ∀ tier, tier ∈ (rows.foldl (fun found row =>
      Dict.set found row.key.contextTier row.value) ([] : Dict ContextTier PyVal)).keys ↔
        tier ∈ rows.map fun row => row.key.contextTier := by
    intro tier
    rw [← Dict.get?_isSome_iff_mem_keys, found, Option.isSome_map, List.getLast?_isSome]
    simp [List.filter_eq_nil_iff]
  unfold highest newestOfHighest
  rw [argmax_eq_of_mem_iff ContextTier.rank_injective tiers, Option.map_bind]
  congr 1
  funext tier
  exact found tier

/-! ## Adjudicators -/

section

variable (ctx : JudgingContext) (lane : LaneConfig) (stores : Stores)

/-- The model of a lane is of the family of what another model produced. -/
def SharesFamily (families : Families) (model : String) (other : Option String) : Prop :=
  families.families.get? model = some (familyOf families other)

/-- The sibling's row whose value the test compares with the anchor's. -/
def comparedRow (item : Asked) : Option Row :=
  newestOfHighest ((judgments stores item.first).filter
    (Row.votes item.question.id .sibling none))

/-- What an adjudicator owes to the votes that it settles. -/
structure Independent (judge : Judge) (item : Asked) (compared : Row) : Prop where
  due : ∃ spec ∈ ctx.tasks, Contested ctx stores spec item ∨ Sampled ctx item
  producers : ∀ subject ∈ item.subjects, ¬ SharesFamily ctx.families judge.2 subject.producerModel
  sibling : ¬ SharesFamily ctx.families judge.2 (some compared.key.judgeModel)

def excludedFamilies (item : Asked) : List String :=
  item.subjects.map (fun subject => familyOf ctx.families subject.producerModel) ++
    (siblingModelOf stores item.first item.question.id).toList.map fun model =>
      familyOf ctx.families (some model)

/-- An adjudicator of the compared sibling's family is excluded anyway, or comes after one
that is not excluded. -/
def StandsBack (item : Asked) (compared : Row) : Prop :=
  ∀ before model after, lane.models = before ++ model :: after →
    SharesFamily ctx.families model (some compared.key.judgeModel) →
      memberOf ctx.families (excludedFamilies ctx stores item) model = true ∨
        ∃ other ∈ before, memberOf ctx.families (excludedFamilies ctx stores item) other = false

variable {ctx lane stores} {judge : Judge} {item : Asked}

theorem Referred.models (referred : Referred ctx lane stores judge item) :
    lane.models.find? (fun model =>
      !memberOf ctx.families (excludedFamilies ctx stores item) model) = some judge.2 := by
  have chosen := referred.chosen
  simp only [adjudicatorForGroup] at chosen
  split at chosen
  · cases chosen
  · exact chosen

theorem Referred.comparedRow (referred : Referred ctx lane stores judge item) :
    ∃ row, comparedRow stores item = some row := by
  have read : highest (byTier stores item.first item.question.id .sibling none) ≠ none := by
    unfold highest
    cases greatest : List.argmax ContextTier.rank
        (Dict.keys (byTier stores item.first item.question.id .sibling none)) with
    | none =>
        have empty := List.map_eq_nil_iff.mp (List.argmax_eq_none.mp greatest)
        exact absurd empty referred.compared
    | some tier =>
        have known := Dict.get?_isSome_iff_mem_keys.mpr (List.argmax_mem greatest)
        exact Option.isSome_iff_ne_none.mp known
  rw [highest_byTier] at read
  refine Option.ne_none_iff_exists'.mp fun none => read ?_
  unfold CityPods.Judging.comparedRow at none
  rw [none]
  rfl

theorem memberOf_false_iff {families : Families} {excluded : List String} {model : String} :
    memberOf families excluded model = false ↔
      ∀ family ∈ excluded, families.families.get? model ≠ some family := by
  simp [memberOf]

theorem Referred.producers (referred : Referred ctx lane stores judge item) :
    ∀ subject ∈ item.subjects, ¬ SharesFamily ctx.families judge.2 subject.producerModel := by
  intro subject member
  have admitted := List.find?_some referred.models
  rw [Bool.not_eq_true', memberOf_false_iff] at admitted
  exact admitted _ (List.mem_append_left _ (List.mem_map_of_mem member))

theorem Referred.sibling_iff (referred : Referred ctx lane stores judge item) (compared : Row) :
    ¬ SharesFamily ctx.families judge.2 (some compared.key.judgeModel) ↔
      StandsBack ctx lane stores item compared := by
  obtain ⟨admitted, before, after, models, earlier⟩ :=
    List.find?_eq_some_iff_append.mp referred.models
  constructor
  · intro independent first model rest split shares
    by_contra neither
    obtain ⟨notExcluded, others⟩ := not_or.mp neither
    have found : lane.models.find? (fun model =>
        !memberOf ctx.families (excludedFamilies ctx stores item) model) = some model := by
      refine List.find?_eq_some_iff_append.mpr ⟨by simpa using notExcluded, first, rest, split, ?_⟩
      intro other member
      have excluded := fun free => others ⟨other, member, free⟩
      simpa using excluded
    cases Option.some.inj (found.symm.trans referred.models)
    exact independent shares
  · intro stands shares
    obtain excluded | ⟨other, member, free⟩ := stands before judge.2 after models shares
    · rw [excluded] at admitted
      cases admitted
    · have blocked := earlier other member
      rw [free] at blocked
      cases blocked

end

/-- An item that goes to an adjudicator is due on the recorded votes, and its adjudicator is
independent of the producers and of the sibling that was compared, exactly where the
adjudicators of that sibling's family stand back. -/
theorem adjudicators_independent_iff {ctx : JudgingContext} {lane : LaneConfig}
    (adjudicates : ctx.adjudicator = some lane) {bounded : Option (Option Int)}
    {episodes : List Episode} {planning : Planning} {judge : Judge} {item : Asked}
    (emitted : (planAdjudication ctx bounded episodes planning).units.Holds judge item) :
    ∃ compared, comparedRow planning.stores item = some compared ∧
      (Independent ctx planning.stores judge item compared ↔
        StandsBack ctx lane planning.stores item compared) := by
  have referred := (refers_planAdjudication adjudicates bounded episodes planning).units.item emitted
  obtain ⟨compared, found⟩ := referred.comparedRow
  refine ⟨compared, found, ?_⟩
  rw [← referred.sibling_iff compared]
  exact ⟨fun independent => independent.sibling,
    fun sibling => ⟨referred.due, referred.producers, sibling⟩⟩

/-! ## Runs -/

def Covers (families : Families) (lane : LaneConfig) : Prop :=
  ∀ model ∈ lane.models, (families.families.get? model).isSome

/-- Blocks that passes lead to, whose lanes may change in between. -/
inductive Reached (families : Families) : Stores → Prop
  | empty : Reached families fun _ => []
  | pass {stores : Stores} (ctx : JudgingContext) (episodes : List Episode)
      (runCaps : Dict String Int) (same : ctx.families = families)
      (anchor : Covers families ctx.anchor) (sibling : Covers families ctx.sibling)
      (adjudicator : ∀ lane, ctx.adjudicator = some lane → Covers families lane)
      (reached : Reached families stores) :
      Reached families (run ctx episodes stores runCaps).stores

def tagged : Subject where
  task := "tag"
  subjectId := "tagged"
  episodeUid := "meeting"
  group := none
  producerModel := some "producer"
  payload := []
  store := 0

def meeting : Episode where
  uid := "meeting"
  published := "2026-01-01"
  store := 0
  transcriptKey := "transcript"
  transcriptSpecHash := ""
  candidates := []

def supported : QuestionSpec where
  id := "supported"
  kind := .validate
  instruction := "Does the segment support the tag?"

def tagTask : TaskSpec where
  name := "tag"
  questions := [supported]
  subjects := fun _ => [tagged]
  evidence := fun _ tier _ => some (makeEvidence tier "Transcript: the bridge contract")
  firstTier := .T1
  escalation := some (.T2, 3 / 10, 7 / 10)
  selectionPolicy := .allAdmitted
  tiers := [.T0, .T1, .T2]
  asks := List.cons_ne_nil supported []
  distinct := List.nodup_singleton _
  graded := by simp [supported]
  chosen := by simp [supported]

def laneOf (model : String) (others : List String) : LaneConfig where
  models := model :: others
  nonempty := List.cons_ne_nil model others

def judgeFamilies : Families where
  families := [("producer", "first"), ("jev", "beat"), ("gemma", "google"), ("qwen", "alibaba"),
    ("qwen-max", "alibaba"), ("deepseek", "deepseek")]

def smallBackend : Backend Asked where
  maxQuestionTokens := 10000
  maxTotalTokens := 10000
  maxItems := 20
  itemTokens := none
  packetInputEstimate := some fun items => 500 * items.length
  allowSingleItemOverflow := false
  overflowInputLimit := none

def replyOf (model : String) : Answer :=
  if model = "jev" then { noul := some (9 / 10) }
  else { verdict := some (decide (model = "gemma")), reason := some "the bridge contract" }

def judging (sibling : String) : JudgingContext where
  tasks := [tagTask]
  anchor := laneOf "jev" []
  sibling := laneOf sibling []
  families := judgeFamilies
  textsFor := fun _ => some ⟨[], [], [], "transcript:"⟩
  lookUp := fun _ => .missing
  submit := fun _ packet =>
    .result (packet.items.map fun item => (item.detail.qid, replyOf packet.judgeModel))
  allTiersSampleRate := 0
  stop := fun _ => false
  maxOutstanding := []
  limited := List.nodup_nil
  adjudicator := some (laneOf "qwen-max" ["deepseek"])
  rebuilt := fun _ _ => .different
  quoteValid := fun _ _ => true
  backendFor := fun _ _ => smallBackend
  recipeHash := fun packet => packet.judgeModel
  str := fun _ => ""

def afterPasses : Stores :=
  (run (judging "qwen") [meeting] (run (judging "gemma") [meeting] (fun _ => []) []).stores []).stores

def thirdPass : Planning :=
  planAdjudication (judging "qwen") none [meeting]
    { stores := afterPasses, loads := { recipes := fun _ => ∅, assigned := [], room := [] } }

theorem Units.holds_of_any (units : Units) (judge : Judge) (wanted : Asked → Bool)
    (any : (units.any fun entry => decide (entry.1 = judge) && entry.2.any fun unit => unit.any wanted) =
      true) : ∃ item, units.Holds judge item ∧ wanted item = true := by
  obtain ⟨entry, member, found⟩ := List.any_eq_true.mp any
  obtain ⟨same, found⟩ := (Bool.and_eq_true _ _).mp found
  obtain ⟨unit, listed, found⟩ := List.any_eq_true.mp found
  obtain ⟨item, inside, wanted⟩ := List.any_eq_true.mp found
  cases of_decide_eq_true same
  exact ⟨item, ⟨entry.2, member, unit, listed, inside⟩, wanted⟩

theorem thirdPass_asks : ∃ item, thirdPass.units.Holds (.adjudicator, "qwen-max") item ∧
    (comparedRow afterPasses item).map (·.key.judgeModel) = some "qwen" := by
  obtain ⟨item, held, compared⟩ := Units.holds_of_any thirdPass.units (.adjudicator, "qwen-max")
    (fun item => decide ((comparedRow afterPasses item).map (·.key.judgeModel) = some "qwen"))
    (by decide +kernel)
  exact ⟨item, held, of_decide_eq_true compared⟩

theorem adjudicators_independent_iff_thirdPass :
    ∃ item compared, thirdPass.units.Holds (.adjudicator, "qwen-max") item ∧
      comparedRow afterPasses item = some compared ∧
        (Independent (judging "qwen") afterPasses (.adjudicator, "qwen-max") item compared ↔
          StandsBack (judging "qwen") (laneOf "qwen-max" ["deepseek"]) afterPasses item compared) := by
  obtain ⟨item, held, _⟩ := thirdPass_asks
  obtain ⟨compared, found, iff⟩ := adjudicators_independent_iff rfl held
  exact ⟨item, compared, held, found, iff⟩

/-- The lane of siblings changed between two passes: the adjudicator is of the family of the
sibling whose value is compared. -/
theorem adjudicator_shares_compared_family : ¬ ∀ (families : Families) (stores : Stores),
    Reached families stores → ∀ (ctx : JudgingContext) (lane : LaneConfig), ctx.families = families →
      ctx.adjudicator = some lane → Covers families lane →
        ∀ (bounded : Option (Option Int)) (episodes : List Episode) (planning : Planning),
          planning.stores = stores → ∀ judge item,
            (planAdjudication ctx bounded episodes planning).units.Holds judge item →
              ∃ compared, comparedRow stores item = some compared ∧
                Independent ctx stores judge item compared := by
  intro claimed
  have covers : ∀ lane ∈ [laneOf "jev" [], laneOf "gemma" [], laneOf "qwen" [],
      laneOf "qwen-max" ["deepseek"]], Covers judgeFamilies lane := by
    intro lane member model listed
    revert lane model
    decide
  have adjudicators : ∀ sibling lane, (judging sibling).adjudicator = some lane →
      Covers judgeFamilies lane := fun _ lane found => Option.some.inj found ▸ covers _ (by simp)
  have reached : Reached judgeFamilies afterPasses :=
    .pass (judging "qwen") [meeting] [] rfl (covers _ (by simp [judging])) (covers _ (by simp [judging]))
      (adjudicators _) (.pass (judging "gemma") [meeting] [] rfl (covers _ (by simp [judging]))
        (covers _ (by simp [judging])) (adjudicators _) .empty)
  obtain ⟨item, held, qwen⟩ := thirdPass_asks
  obtain ⟨compared, found, independent⟩ := claimed judgeFamilies afterPasses reached (judging "qwen")
    (laneOf "qwen-max" ["deepseek"]) rfl rfl (covers _ (by simp)) none [meeting] _ rfl _ item held
  rw [found] at qwen
  have second : compared.key.judgeModel = "qwen" := Option.some.inj qwen
  refine independent.sibling ?_
  unfold SharesFamily
  rw [second]
  decide

end CityPods.Judging
