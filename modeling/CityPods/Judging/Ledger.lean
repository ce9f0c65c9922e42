import CityPods.Foundation.PyVal
import Mathlib.Data.List.MinMax
import Mathlib.Logic.Function.Basic

/-! # The ledger of judgments

Judgments live in the block of the episode, never in the candidates: per subject the
judgments, the questions in flight and the evidence that could not be built.
-/

namespace CityPods.Judging

open Foundation

inductive QuestionKind
  | validate
  | gate
  | grade
  | choose
  deriving DecidableEq

def QuestionKind.name : QuestionKind → String
  | .validate => "validate"
  | .gate => "gate"
  | .grade => "grade"
  | .choose => "choose"

inductive ContextTier
  | T0
  | T1
  | T2
  | T3
  deriving DecidableEq

namespace ContextTier

def name : ContextTier → String
  | .T0 => "T0"
  | .T1 => "T1"
  | .T2 => "T2"
  | .T3 => "T3"

/-- The position in `TIERS`. -/
def rank : ContextTier → Nat
  | .T0 => 0
  | .T1 => 1
  | .T2 => 2
  | .T3 => 3

theorem rank_injective : Function.Injective rank := by
  intro first second
  cases first <;> cases second <;> simp [rank]

end ContextTier

structure QuestionSpec where
  id : String
  kind : QuestionKind
  instruction : String
  levels : List String := []
  promptVersion : String := "1"
  deriving DecidableEq

/-- One producer output to judge; `store` says in which episode's block its judgments are. -/
structure Subject where
  task : String
  subjectId : String
  episodeUid : String
  group : Option String
  producerModel : Option String
  payload : Dict String PyVal
  store : Nat

structure Evidence where
  tier : ContextTier
  text : String
  digest : String

/-- What evidence is built from, and the transcript that it comes from. -/
structure EpisodeTexts where
  segments : List PyVal
  chapters : List PyVal
  definitions : Dict String String
  identity : String

structure Episode where
  uid : String
  published : String
  store : Nat
  transcriptKey : String
  transcriptSpecHash : String
  candidates : List (Dict String PyVal)

inductive SelectionPolicy
  | allAdmitted
  | topKPerGroup
  deriving DecidableEq

/-- A registered task. The first tier and the tier of the escalation are context tiers by
their type; the other conditions of the registration are fields. -/
structure TaskSpec where
  name : String
  questions : List QuestionSpec
  subjects : Episode → List Subject
  evidence : Subject → ContextTier → EpisodeTexts → Option Evidence
  firstTier : ContextTier
  escalation : Option (ContextTier × ℚ × ℚ)
  selectionPolicy : SelectionPolicy
  tiers : List ContextTier
  asks : questions ≠ []
  distinct : (questions.map QuestionSpec.id).Nodup
  graded : ∀ question ∈ questions, question.kind = .grade → question.levels ≠ []
  chosen : ∀ question ∈ questions, question.kind = .choose → selectionPolicy = .topKPerGroup

structure Key where
  subjectId : String
  questionId : String
  judgeModel : String
  promptVersion : String
  contextTier : ContextTier
  evidenceDigest : String
  deriving DecidableEq

inductive JudgeRole
  | adjudicator
  | anchor
  | audit
  | sibling
  deriving DecidableEq

namespace JudgeRole

def name : JudgeRole → String
  | .adjudicator => "adjudicator"
  | .anchor => "anchor"
  | .audit => "audit"
  | .sibling => "sibling"

end JudgeRole

inductive Sample
  | routine
  | escalation
  | allTiers
  | stability
  | contested
  | calibration
  | probe
  deriving DecidableEq

structure Row where
  key : Key
  judgeRole : JudgeRole
  value : PyVal
  reason : Option String := none
  quoteValid : Option Bool := none

/-- Only adjudicators need a quote that passed its check. -/
def Row.usableVote (row : Row) : Bool :=
  decide (row.judgeRole ≠ .adjudicator) || decide (row.quoteValid ≠ some false)

/-- A question in flight, and the recipe that will answer it. -/
structure Marker where
  key : Key
  qid : String
  judgeRole : JudgeRole
  purpose : String
  recipeHash : String
  sample : Sample
  options : List (Char × String)

structure Entry where
  task : String
  judgments : List Row := []
  pending : List Marker := []
  unbuildable : Dict String String := []

abbrev Block := Dict String Entry

abbrev Stores := Nat → Block

namespace Ledger

def entryOf (stores : Stores) (subject : Subject) : Option Entry :=
  (stores subject.store).get? subject.subjectId

/-- Rewrite the subject's entry, created where it is missing. -/
def change (stores : Stores) (subject : Subject) (edit : Entry → Entry) : Stores :=
  Function.update stores subject.store ((stores subject.store).set subject.subjectId
    (edit ((entryOf stores subject).getD { task := subject.task })))

def judgments (stores : Stores) (subject : Subject) : List Row :=
  ((entryOf stores subject).map Entry.judgments).getD []

def pending (stores : Stores) (subject : Subject) : List Marker :=
  ((entryOf stores subject).map Entry.pending).getD []

def unbuildable (stores : Stores) (subject : Subject) : Dict String String :=
  ((entryOf stores subject).map Entry.unbuildable).getD []

def hasKey (stores : Stores) (subject : Subject) (key : Key) : Bool :=
  ((judgments stores subject).any fun row => row.key = key) ||
    (pending stores subject).any fun marker => marker.key = key

/-- Whether the row was appended, and the blocks after it. -/
def appendJudgment (stores : Stores) (subject : Subject) (row : Row) : Bool × Stores :=
  if (judgments stores subject).any fun existing => existing.key = row.key then (false, stores)
  else
    (true, change stores subject fun entry => { entry with judgments := entry.judgments ++ [row] })

def addPending (stores : Stores) (subject : Subject) (marker : Marker) : Stores :=
  if (pending stores subject).any fun existing => existing.key = marker.key then stores
  else change stores subject fun entry => { entry with pending := entry.pending ++ [marker] }

def dropPending (stores : Stores) (subject : Subject) (marker : Marker) : Stores :=
  if (entryOf stores subject).isNone then stores
  else
    change stores subject fun entry =>
      { entry with pending := entry.pending.filter fun existing => existing.key ≠ marker.key }

def unbuildableKey (questionId judgeModel promptVersion tier : String) : String :=
  s!"{questionId}|{judgeModel}|{promptVersion}|{tier}"

def markUnbuildable (stores : Stores) (subject : Subject) (key transcriptIdentity : String) :
    Stores :=
  if (unbuildable stores subject).get? key = some transcriptIdentity then stores
  else
    change stores subject fun entry =>
      { entry with unbuildable := entry.unbuildable.set key transcriptIdentity }

/-- The anchor's recorded probability for one question at one tier. -/
def anchorValue (stores : Stores) (subject : Subject) (questionId : String) (tier : ContextTier)
    (anchorModel : String) : Option ℚ :=
  (judgments stores subject).findSome? fun row =>
    if row.key.questionId = questionId ∧ row.key.contextTier = tier ∧
        row.key.judgeModel = anchorModel then
      match row.value with
      | .num value => some value
      | _ => none
    else none

theorem entryOf_change (stores : Stores) (subject other : Subject) (edit : Entry → Entry) :
    entryOf (change stores subject edit) other =
      if subject.store = other.store ∧ subject.subjectId = other.subjectId then
        some (edit ((entryOf stores subject).getD { task := subject.task }))
      else entryOf stores other := by
  unfold entryOf change
  by_cases store : other.store = subject.store
  · rw [store, Function.update_self, Dict.get?_set]
    simp [entryOf]
  · rw [Function.update_of_ne store, if_neg fun same => store same.1.symm]

theorem judgments_change (stores : Stores) (subject other : Subject) {edit : Entry → Entry}
    (kept : ∀ entry, (edit entry).judgments = entry.judgments) :
    judgments (change stores subject edit) other = judgments stores other := by
  unfold judgments
  rw [entryOf_change]
  split
  · next same =>
    have entries : entryOf stores other = entryOf stores subject := by
      unfold entryOf
      rw [same.1, same.2]
    rw [entries]
    cases entryOf stores subject <;> simp [kept]
  · rfl

@[simp] theorem judgments_markUnbuildable (stores : Stores) (subject other : Subject)
    (key identity : String) :
    judgments (markUnbuildable stores subject key identity) other = judgments stores other := by
  unfold markUnbuildable
  split
  · rfl
  · exact judgments_change stores subject other fun _ => rfl

end Ledger

end CityPods.Judging
