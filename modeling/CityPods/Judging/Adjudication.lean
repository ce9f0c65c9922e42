import CityPods.Foundation.Sha
import CityPods.Judging.Families
import Mathlib.Data.Rat.Floor

/-! # What goes to the adjudicator

A question whose judges disagree is contested; a share of the others is sampled. The
stored judgments alone decide it.
-/

namespace CityPods.Judging

open Foundation Ledger

/-- `int(hashlib.sha256(key.encode()).hexdigest()[:8], 16) % 10_000` -/
def sampleBucket (key : String) : Nat :=
  (Sha256.digest (key.toUTF8.toList.map UInt8.toNat) >>> 224) % 10000

/-- Membership in a share of the keys. -/
def inSample (key : String) (rate : ℚ) : Bool :=
  decide ((sampleBucket key : Int) < (rate * 10000).floor)

structure Due where
  question : QuestionSpec
  sample : Sample

def Row.votes (questionId : String) (role : JudgeRole) (model : Option String) (row : Row) : Bool :=
  decide (row.key.questionId = questionId) && decide (row.judgeRole = role) &&
    model.all (fun model => decide (row.key.judgeModel = model)) && row.usableVote

def byTier (stores : Stores) (subject : Subject) (questionId : String) (role : JudgeRole)
    (model : Option String) : Dict ContextTier PyVal :=
  ((judgments stores subject).filter (Row.votes questionId role model)).foldl
    (fun found row => found.set row.key.contextTier row.value) []

/-- `values[max(values, key=_tier_rank)]`, where there is one. -/
def highest (values : Dict ContextTier PyVal) : Option PyVal :=
  (values.keys.argmax ContextTier.rank).bind values.get?

def number : PyVal → Option ℚ
  | .num value => some value
  | _ => none

def siblingModelOf (stores : Stores) (subject : Subject) (questionId : String) : Option String :=
  ((judgments stores subject).find? fun row =>
      decide (row.key.questionId = questionId) && decide (row.judgeRole = .sibling)).bind fun row =>
    if row.key.judgeModel = "" then none else some row.key.judgeModel

section

variable (stores : Stores) (subject : Subject) (spec : TaskSpec) (question : QuestionSpec)

/-- Whether the anchor is still due to judge the question again at the escalation tier. -/
def awaitingEscalation (anchor : Dict ContextTier PyVal) (anchorModel : String) : Bool :=
  match spec.escalation with
  | none => false
  | some (tier, low, high) =>
      decide (question.kind = .validate) && !anchor.contains tier &&
        (((anchor.get? spec.firstTier).bind number).any fun first =>
          decide (low ≤ first ∧ first ≤ high)) &&
        !(unbuildable stores subject).contains
          (unbuildableKey question.id anchorModel question.promptVersion tier.name)

/-- The anchor's final reading against the sibling's and a person's, or the anchor still in
the band. -/
def contested (anchor sibling audit : Dict ContextTier PyVal) : Bool :=
  match (highest anchor).bind number, highest sibling with
  | some a, some s =>
      let audited :=
        match highest audit with
        | some (.bool vote) =>
            decide (question.kind = .validate) &&
              (decide (decide (1 / 2 ≤ a) ≠ vote) ||
                match s with
                | .bool flag => decide (flag ≠ vote)
                | _ => false)
        | _ => false
      let differs :=
        match question.kind with
        | .validate | .gate =>
            match s with
            | .bool flag => decide (decide (1 / 2 ≤ a) ≠ flag)
            | _ => false
        | .grade => (number s).any fun level => decide (1 < |a - level|)
        | .choose => false
      let banded :=
        match spec.escalation with
        | some (_, low, high) =>
            decide (question.kind = .validate) && decide (low ≤ a ∧ a ≤ high)
        | none => false
      audited || differs || banded
  | _, _ => false

def dueQuestions (anchorModel : String) (calibrationRate : ℚ) : List Due :=
  spec.questions.filterMap fun question =>
    let anchor := byTier stores subject question.id .anchor (some anchorModel)
    let sibling := byTier stores subject question.id .sibling none
    if question.kind = .choose ∨ anchor = [] ∨ sibling = [] then none
    else if awaitingEscalation stores subject spec question anchor anchorModel then none
    else if contested spec question anchor sibling
        (byTier stores subject question.id .audit (some "human")) then
      some ⟨question, .contested⟩
    else if inSample s!"{subject.subjectId}:{question.id}:calibration" calibrationRate then
      some ⟨question, .calibration⟩
    else none

end

section

variable (str : PyVal → String) (stores : Stores)

def winner (subject : Subject) (questionId : String) (role : JudgeRole) (model : Option String) :
    Option String :=
  (highest (byTier stores subject questionId role model)).map str

/-- `value or default` -/
def orElse (value : Option String) (default : String) : String :=
  match value with
  | some text => if text = "" then default else text
  | none => default

/-- The meeting's question for the best, when the winners differ. The votes of a group are
those of its first subject. -/
def chooseDue (subjects : List Subject) (spec : TaskSpec) (anchorModel : String)
    (calibrationRate : ℚ) : Option Due :=
  match spec.questions.find? (fun question => decide (question.kind = .choose)), subjects with
  | some question, key :: _ :: _ =>
      match winner str stores key question.id .anchor (some anchorModel),
          winner str stores key (question.id ++ "_r") .anchor (some anchorModel),
          winner str stores key question.id .sibling none with
      | some forward, some reverse, some sibling =>
          if forward ≠ reverse ∨ forward ≠ sibling then some ⟨question, .contested⟩
          else if inSample s!"{orElse key.group key.subjectId}:{question.id}:calibration"
              calibrationRate then
            some ⟨question, .calibration⟩
          else none
      | _, _, _ => none
  | _, _ => none

end

def adjudicatorForGroup (families : Families) (subjects : List Subject)
    (siblingModel : Option String) (adjudicator : LaneConfig) : Option String :=
  let producers := subjects.map fun subject => familyOf families subject.producerModel
  if unknownFamily ∈ producers then none
  else
    let excluded := producers ++ siblingModel.toList.map fun model => familyOf families (some model)
    adjudicator.models.find? fun model => !memberOf families excluded model

def subjectAdjudicator (stores : Stores) (families : Families) (subject : Subject)
    (questionId : String) (adjudicator : LaneConfig) : Option String :=
  adjudicatorFor families subject.producerModel (siblingModelOf stores subject questionId) adjudicator

def adjudicationUnbuildableKey (question : QuestionSpec) (model : String) : String :=
  unbuildableKey question.id model question.promptVersion "adj"

/-- For one subject the two ways of choosing agree. -/
theorem adjudicatorForGroup_single (families : Families) (subject : Subject)
    (siblingModel : Option String) (adjudicator : LaneConfig) :
    adjudicatorForGroup families [subject] siblingModel adjudicator =
      adjudicatorFor families subject.producerModel siblingModel adjudicator := by
  simp [adjudicatorForGroup, adjudicatorFor, eq_comm]

end CityPods.Judging
