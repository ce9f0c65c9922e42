import CityPods.Judging.Adjudication
import CityPods.Judging.Packing
import Mathlib.Algebra.Order.Field.Rat
import Mathlib.Data.Finset.Card
import Mathlib.Order.WithBot

/-! # Planning a judging pass

What is due: every subject by the anchor and by one sibling, the choice of each
meeting, and what goes to the adjudicator.
-/

namespace CityPods.Judging

open Foundation Ledger

/-! ## Items -/

structure Asked where
  question : QuestionSpec
  tier : ContextTier
  evidence : Evidence
  subjects : List Subject
  about : subjects ≠ []
  sample : Sample := .routine
  options : List (Char × String) := []
  order : String := ""
  askedQid : String := ""

namespace Asked

/-- The subject whose ledger tells whether the item was asked. -/
def first (item : Asked) : Subject := item.subjects.head item.about

def questionId (item : Asked) : String := item.question.id ++ item.order

def qid (item : Asked) : String :=
  if item.askedQid ≠ "" then item.askedQid
  else
    let head :=
      if item.question.kind = .choose then item.first.group.getD "None" else item.first.subjectId
    s!"{head}:{item.question.id}{item.order}:{item.tier.name}"

def key (item : Asked) (subject : Subject) (model : String) : Key where
  subjectId := subject.subjectId
  questionId := item.questionId
  judgeModel := model
  promptVersion := item.question.promptVersion
  contextTier := item.tier
  evidenceDigest := item.evidence.digest

theorem about_single (subject : Subject) : [subject] ≠ [] := List.cons_ne_nil subject []

def single (question : QuestionSpec) (tier : ContextTier) (evidence : Evidence) (subject : Subject)
    (sample : Sample) (order : String) : Asked where
  question := question
  tier := tier
  evidence := evidence
  subjects := [subject]
  about := about_single subject
  sample := sample
  order := order

end Asked

def stabilityOrder : String := "_s"

def makeEvidence (tier : ContextTier) (text : String) : Evidence where
  tier := tier
  text := text
  digest := String.ofList ((sha256Hex s!"1\x00{tier.name}\x00{text}").toList.take 32)

def choiceLetters : List Char := "ABCDEFGHIJKLMNOPQRSTUVWXYZ".toList

def chooseOptions (subjects : List Subject) (reverse : Bool) : List (Char × String) :=
  let ordered := (subjects.map Subject.subjectId).insertionSort (· ≤ ·)
  choiceLetters.zip (if reverse then ordered.reverse else ordered)

/-- Each option's quote beside its letter. -/
def chooseEvidence (str : PyVal → String) (spec : TaskSpec) (subjects : List Subject)
    (options : List (Char × String)) : Evidence :=
  let lines := options.map fun option =>
    let quote := (subjects.reverse.find? fun subject => subject.subjectId = option.2).bind fun subject =>
      subject.payload.get? "quote"
    String.ofList [option.1, ':', ' '] ++ str (quote.getD .none)
  makeEvidence spec.firstTier (String.intercalate "\n" lines)

/-! ## The context of a pass -/

structure Probe where
  id : String
  task : String
  questionId : String
  tier : ContextTier
  evidence : String

/-- One answer of a reply, as the decoder of its contract yields it. -/
structure Answer where
  kind : Option String := none
  noul : Option ℚ := none
  score : Option ℚ := none
  verdict : Option Bool := none
  level : Option Nat := none
  choice : Option String := none
  reason : Option String := none

/-- What is recorded for the recipe of a packet. -/
inductive Record
  | handle
  | unreadable
  | missing
  | result (answers : Dict String Answer)

/-- What becomes of a packet that is submitted. -/
inductive Outcome
  | result (answers : Dict String Answer)
  | handle
  | other
  | raises

/-- The evidence of an answer, rebuilt for the check of its quote. -/
inductive Rebuilt
  | text (text : String)
  | different
  | deferred

/-- What a pass is given. `stop` answers its checks one after another, and `submit` the
submissions; `str` is the language's conversion to a string. -/
structure JudgingContext where
  tasks : List TaskSpec
  anchor : LaneConfig
  sibling : LaneConfig
  families : Families
  textsFor : Episode → Option EpisodeTexts
  lookUp : String → Record
  submit : Nat → Packet Asked → Outcome
  allTiersSampleRate : ℚ
  stop : Nat → Bool
  dryRun : Bool := false
  maxOutstanding : Dict String Int := []
  limited : maxOutstanding.keys.Nodup
  adjudicator : Option LaneConfig := none
  calibrationSampleRate : ℚ := 0
  stabilitySampleRate : ℚ := 0
  rebuilt : Subject → Marker → Rebuilt
  quoteValid : Option String → String → Bool
  probes : List Probe := []
  probesPerPass : Int := 0
  auditRows : Dict String (List Row) := []
  siblingHeadroom : Dict String ℚ := []
  backendFor : JudgeRole → String → Backend Asked
  recipeHash : Packet Asked → String
  str : PyVal → String

/-- Packets waiting for each model, items assigned in this pass, and packets that it may
still take. -/
structure Loads where
  recipes : String → Finset String
  assigned : Dict String Nat
  room : Dict String Int

/-- The configured ceilings: tokens and items of a packet. -/
def siblingCeilings : Dict String (Int × Int) :=
  [("google/gemma-4-31b-it", 8500, 25), ("google/gemma-4-26b-a4b-it", 8500, 25),
    ("openrouter/nvidia/nemotron-3-super-120b-a12b:free", 24000, 25),
    ("openrouter/nvidia/nemotron-3.5-super-vl:free", 24000, 25)]

def defaultSiblingCeiling : Int × Int := (10000, 20)

def siblingCeiling (model : String) : Int × Int :=
  (siblingCeilings.get? model).getD defaultSiblingCeiling

def modelsUsed (stores : Stores) (subject : Subject) : List String :=
  ((judgments stores subject).map (·.key.judgeModel) ++
    (pending stores subject).map (·.key.judgeModel)).filter (· ≠ "")

/-- Packets waiting per unit of headroom; `⊤` where the model can take nothing. -/
def siblingLoad (ctx : JudgingContext) (loads : Loads) (model : String) : WithTop ℚ :=
  let weight := (ctx.siblingHeadroom.get? model).getD 1
  if weight ≤ 0 ∨ (loads.room.get? model).getD 1 ≤ 0 then ⊤
  else
    let waiting : ℚ := (loads.recipes model).card +
      ((loads.assigned.get? model).getD 0 : ℚ) / ((siblingCeiling model).2 : ℚ)
    ((waiting / weight : ℚ) : WithTop ℚ)

/-- The sibling that judged the subject before, or the least loaded candidate. -/
def pickSibling (ctx : JudgingContext) (candidates used : List String) (loads : Loads) :
    Option String × Loads :=
  match candidates.find? (· ∈ used), candidates with
  | some model, _ => (some model, loads)
  | none, [] => (none, loads)
  | none, [only] => (some only, loads)
  | none, candidates =>
      match candidates.argmin (siblingLoad ctx loads) with
      | none => (none, loads)
      | some chosen =>
          (some chosen, { loads with
            assigned := loads.assigned.set chosen ((loads.assigned.get? chosen).getD 0 + 1) })

theorem pickSibling_mem {ctx : JudgingContext} {candidates used : List String} {loads : Loads}
    {model : String} (picked : (pickSibling ctx candidates used loads).1 = some model) :
    model ∈ candidates := by
  unfold pickSibling at picked
  split at picked
  · next found => exact (Option.some.inj picked) ▸ List.mem_of_find?_eq_some found
  · cases picked
  · exact (Option.some.inj picked) ▸ List.mem_singleton_self _
  · split at picked
    · cases picked
    · next least => exact (Option.some.inj picked) ▸ List.argmin_mem least

/-! ## Units -/

abbrev Judge := JudgeRole × String

/-- For each judge the units of items that are packed together. -/
abbrev Units := Dict Judge (List (List Asked))

namespace Units

def add (units : Units) (judge : Judge) (unit : List Asked) : Units :=
  Dict.set units judge (((Dict.get? units judge).getD []) ++ [unit])

def Holds (units : Units) (judge : Judge) (item : Asked) : Prop :=
  ∃ judgeUnits, (judge, judgeUnits) ∈ units ∧ ∃ unit ∈ judgeUnits, item ∈ unit

end Units

/-- What planning changes: the evidence that cannot be built, the loads, the units, and the
episodes reached. `checks` counts the calls of `stop`. -/
structure Planning where
  stores : Stores
  loads : Loads
  units : Units := []
  planned : List String := []
  unavailable : List String := []
  checks : Nat := 0

/-- The planning within one meeting, with the items that stay together. -/
structure MeetingPlanning where
  planning : Planning
  group : Dict Judge (List Asked) := []

namespace MeetingPlanning

def ask (state : MeetingPlanning) (judge : Judge) (item : Asked) : MeetingPlanning :=
  { state with group := state.group.set judge (((state.group.get? judge).getD []) ++ [item]) }

def askAlone (state : MeetingPlanning) (judge : Judge) (item : Asked) : MeetingPlanning :=
  { state with planning := { state.planning with units := state.planning.units.add judge [item] } }

def keep (state : MeetingPlanning) (stores : Stores) : MeetingPlanning :=
  { state with planning := { state.planning with stores := stores } }

def carry (state : MeetingPlanning) (loads : Loads) : MeetingPlanning :=
  { state with planning := { state.planning with loads := loads } }

/-- Each judge's items of the meeting become one unit. -/
def finish (state : MeetingPlanning) : Planning :=
  { state.planning with
    units := state.group.foldl (fun units group => units.add group.1 group.2) state.planning.units }

end MeetingPlanning

section

variable (ctx : JudgingContext)

/-! ## Anchor and sibling -/

def dueTiers (stores : Stores) (subject : Subject) (spec : TaskSpec) (role : JudgeRole) :
    List (ContextTier × Sample) :=
  let escalated :=
    match role, spec.escalation with
    | .anchor, some (tier, low, high) =>
        if (spec.questions.filter (·.kind = .validate)).any fun question =>
            (anchorValue stores subject question.id spec.firstTier ctx.anchor.primaryModel).any
              fun value => decide (low ≤ value ∧ value ≤ high) then
          [(tier, Sample.escalation)]
        else []
    | _, _ => []
  let sampled :=
    if inSample subject.subjectId ctx.allTiersSampleRate then
      (spec.tiers.filter (· ≠ spec.firstTier)).map fun tier => (tier, Sample.allTiers)
    else []
  ((spec.firstTier, Sample.routine) :: escalated ++ sampled).foldl
    (fun tiers due => if due.1 ∈ tiers.map Prod.fst then tiers else tiers ++ [due]) []

/-- Whether a judged question is asked once more to count the judge's flips. -/
def stabilityDue (stores : Stores) (subject : Subject) (question : QuestionSpec) (sample : Sample)
    (key : Key) : Bool :=
  decide (sample = .routine) && decide (0 < ctx.stabilitySampleRate) &&
    inSample s!"{subject.subjectId}:stability" ctx.stabilitySampleRate &&
    ((judgments stores subject).any fun row => row.key = key) &&
    !hasKey stores subject { key with questionId := question.id ++ stabilityOrder }

def planQuestion (spec : TaskSpec) (subject : Subject) (judge : Judge) (tier : ContextTier)
    (sample : Sample) (evidence : Evidence) (state : MeetingPlanning) (question : QuestionSpec) :
    MeetingPlanning :=
  let stores := state.planning.stores
  let item := Asked.single question tier evidence subject sample ""
  let key := item.key subject judge.2
  if hasKey stores subject key then
    if stabilityDue ctx stores subject question sample key then
      state.askAlone judge
        (Asked.single question tier evidence subject .stability stabilityOrder)
    else state
  else if spec.selectionPolicy = .topKPerGroup then state.ask judge item
  else state.askAlone judge item

/-- Mark the evidence that a transcript does not yield, for each of the keys. -/
def markAll (stores : Stores) (subject : Subject) (identity : String) (keys : List String) :
    Stores :=
  if decide (identity = "") || ctx.dryRun then stores
  else keys.foldl (fun stores key => markUnbuildable stores subject key identity) stores

def perQuestion (spec : TaskSpec) : List QuestionSpec :=
  spec.questions.filter (·.kind ≠ .choose)

def planTier (spec : TaskSpec) (texts : EpisodeTexts) (subject : Subject) (judge : Judge)
    (state : MeetingPlanning) (due : ContextTier × Sample) : MeetingPlanning :=
  match spec.evidence subject due.1 texts with
  | none =>
      state.keep (markAll ctx state.planning.stores subject texts.identity
        ((perQuestion spec).map fun question =>
          unbuildableKey question.id judge.2 question.promptVersion due.1.name))
  | some evidence =>
      (perQuestion spec).foldl (planQuestion ctx spec subject judge due.1 due.2 evidence) state

def judgesWith (sibling : Option String) : List Judge :=
  (.anchor, ctx.anchor.primaryModel) :: sibling.toList.map fun model => (.sibling, model)

def planJudge (spec : TaskSpec) (texts : EpisodeTexts) (subject : Subject) (state : MeetingPlanning)
    (judge : Judge) : MeetingPlanning :=
  (dueTiers ctx state.planning.stores subject spec judge.1).foldl
    (planTier ctx spec texts subject judge) state

def planSubject (spec : TaskSpec) (texts : EpisodeTexts) (state : MeetingPlanning)
    (subject : Subject) : MeetingPlanning :=
  let byRule := decide (familyOf ctx.families subject.producerModel = ruleFamily)
  let picked := pickSibling ctx
    (siblingCandidates ctx.families subject.producerModel ctx.sibling byRule)
    (modelsUsed state.planning.stores subject) state.planning.loads
  (judgesWith ctx picked.1).foldl (planJudge ctx spec texts subject) (state.carry picked.2)

/-- The item for the choice of a meeting. -/
def chooseItem (spec : TaskSpec) (question : QuestionSpec) (key other : Subject)
    (others : List Subject) (reverse : Bool) (sample : Sample) : Asked :=
  let subjects := key :: other :: others
  let options := chooseOptions subjects reverse
  { question := question
    tier := spec.firstTier
    evidence := chooseEvidence ctx.str spec subjects options
    subjects := subjects
    about := List.cons_ne_nil key _
    sample := sample
    options := options
    order := if reverse then "_r" else "" }

/-- The choice of the meeting, asked of the anchor and a sibling with the options in both
orders. -/
def planChoose (spec : TaskSpec) (subjects : List Subject) (state : MeetingPlanning) :
    MeetingPlanning :=
  match spec.questions.find? (fun question => decide (question.kind = .choose)), subjects with
  | some question, key :: other :: others =>
      let byRule := (key :: other :: others).all fun subject =>
        decide (familyOf ctx.families subject.producerModel = ruleFamily)
      let picked := pickSibling ctx
        (chooseSiblingCandidates ctx.families
          ((key :: other :: others).map Subject.producerModel) ctx.sibling byRule)
        (modelsUsed state.planning.stores key) state.planning.loads
      let asks := [false, true].flatMap fun reverse =>
        (judgesWith ctx picked.1).map fun judge =>
          (judge, chooseItem ctx spec question key other others reverse .routine)
      asks.foldl
        (fun state ask =>
          if hasKey state.planning.stores key (ask.2.key key ask.1.2) then state
          else state.ask ask.1 ask.2)
        (state.carry picked.2)
  | _, _ => state

def planTask (ep : Episode) (texts : EpisodeTexts) (planning : Planning) (spec : TaskSpec) :
    Planning :=
  let subjects := spec.subjects ep
  let asked := subjects.foldl (planSubject ctx spec texts) { planning := planning }
  (planChoose ctx spec subjects asked).finish

/-- The texts are read for the first task with subjects, and once in a pass. -/
def planEpisode (planning : Planning) (ep : Episode) : Planning :=
  let planning := { planning with planned := ep.uid :: planning.planned }
  let tasks := ctx.tasks.filter fun spec => !(spec.subjects ep).isEmpty
  if tasks.isEmpty then planning
  else
    match ctx.textsFor ep with
    | none => { planning with unavailable := ep.uid :: planning.unavailable }
    | some texts => tasks.foldl (planTask ctx ep texts) planning

/-- Items that a pass can submit. -/
structure ItemBudget where
  anchor : Int
  sibling : Int

def plannedItems (units : Units) (role : JudgeRole) : Nat :=
  (List.map (fun entry => if entry.1.1 = role then (entry.2.map List.length).sum else 0) units).sum

/-- Plan episodes until `stop` fires or both budgets are met; `bounded` is `none` where all
of them are planned. -/
def plan (bounded : Option (Option ItemBudget)) : List Episode → Planning → Planning
  | [], planning => planning
  | ep :: later, planning =>
      match bounded with
      | none => plan bounded later (planEpisode ctx planning ep)
      | some budget =>
          if ctx.stop planning.checks then { planning with checks := planning.checks + 1 }
          else if budget.any fun budget =>
              decide (budget.anchor ≤ (plannedItems planning.units .anchor : Int)) &&
                decide (budget.sibling ≤ (plannedItems planning.units .sibling : Int)) then
            { planning with checks := planning.checks + 1 }
          else
            plan bounded later (planEpisode ctx { planning with checks := planning.checks + 1 } ep)

/-! ## Adjudicator -/

def largestTierEvidence (spec : TaskSpec) (subject : Subject) (texts : EpisodeTexts) :
    Option (ContextTier × Evidence) :=
  spec.tiers.reverse.findSome? fun tier =>
    (spec.evidence subject tier texts).map fun evidence => (tier, evidence)

def adjudicateSubject (lane : LaneConfig) (spec : TaskSpec) (texts : EpisodeTexts)
    (state : MeetingPlanning) (ask : Subject × Due) : MeetingPlanning :=
  let stores := state.planning.stores
  match subjectAdjudicator stores ctx.families ask.1 ask.2.question.id lane with
  | none => state
  | some model =>
      match largestTierEvidence spec ask.1 texts with
      | none =>
          state.keep (markAll ctx stores ask.1 texts.identity
            [adjudicationUnbuildableKey ask.2.question model])
      | some (tier, evidence) =>
          let item := Asked.single ask.2.question tier evidence ask.1 ask.2.sample ""
          if hasKey stores ask.1 (item.key ask.1 model) then state
          else if spec.selectionPolicy = .topKPerGroup then state.ask (.adjudicator, model) item
          else state.askAlone (.adjudicator, model) item

/-- The choice of a meeting, with the options in both orders. -/
def adjudicateMeeting (lane : LaneConfig) (spec : TaskSpec) (subjects : List Subject)
    (due : Option Due) (state : MeetingPlanning) : MeetingPlanning :=
  match due, subjects with
  | some due, key :: other :: others =>
      let stores := state.planning.stores
      match adjudicatorForGroup ctx.families (key :: other :: others)
          (siblingModelOf stores key due.question.id) lane with
      | none => state
      | some model =>
          [false, true].foldl
            (fun state reverse =>
              let item := chooseItem ctx spec due.question key other others reverse due.sample
              if hasKey state.planning.stores key (item.key key model) then state
              else state.ask (.adjudicator, model) item)
            state
  | _, _ => state

/-- The texts are read only where something is due; a read that failed fails again in the
pass. -/
def adjudicateTask (lane : LaneConfig) (ep : Episode) (planning : Planning) (spec : TaskSpec) :
    Planning :=
  let subjects := spec.subjects ep
  let work := subjects.flatMap fun subject =>
    (dueQuestions planning.stores subject spec ctx.anchor.primaryModel
      ctx.calibrationSampleRate).map fun due => (subject, due)
  let due := chooseDue ctx.str planning.stores subjects spec ctx.anchor.primaryModel
    ctx.calibrationSampleRate
  if work.isEmpty && due.isNone then planning
  else
    match ctx.textsFor ep with
    | none => { planning with unavailable := ep.uid :: planning.unavailable }
    | some texts =>
        (adjudicateMeeting ctx lane spec subjects due
          (work.foldl (adjudicateSubject ctx lane spec texts) { planning := planning })).finish

def adjudicateEpisodes (lane : LaneConfig) (bounded : Option (Option Int)) :
    List Episode → Planning → Planning
  | [], planning => planning
  | ep :: later, planning =>
      match bounded with
      | none =>
          adjudicateEpisodes lane bounded later (ctx.tasks.foldl (adjudicateTask ctx lane ep) planning)
      | some budget =>
          let checked := { planning with checks := planning.checks + 1 }
          if ctx.stop planning.checks then checked
          else if budget.any fun budget =>
              decide (budget ≤ (plannedItems planning.units .adjudicator : Int)) then
            checked
          else
            adjudicateEpisodes lane bounded later (ctx.tasks.foldl (adjudicateTask ctx lane ep) checked)

/-- The units for the adjudicators: contested questions and the calibration sample. -/
def planAdjudication (bounded : Option (Option Int)) (episodes : List Episode)
    (planning : Planning) : Planning :=
  match ctx.adjudicator with
  | none => { planning with units := [] }
  | some lane => adjudicateEpisodes ctx lane bounded episodes { planning with units := [] }

end

end CityPods.Judging
