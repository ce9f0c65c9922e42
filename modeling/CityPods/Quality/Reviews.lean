import Mathlib.Algebra.Order.Ring.Rat
import Mathlib.Data.Int.Order.Basic
import CityPods.Foundation.Sessions
import CityPods.Foundation.Texts
import CityPods.Quality.Rollups

/-! # Review decisions

The ledger of review decisions: samples are appended as they are evaluated, a
decision is ingested into its sample, and reviewers' corrections are scored out
of band. Every change is re-applied to whatever ledger wins the race.
-/

namespace CityPods.Quality

open Foundation
open Foundation.Whitespace (strip)

def ledgerKey : String := "state/transcript_quality_ledger.json"

def mirrorKey : String := "state/transcript_quality_rollups.json"

/-! ## Decisions -/

inductive PrimaryOutcome
  | aBetter
  | bBetter
  | bothCorrect
  | neither
  deriving DecidableEq

def PrimaryOutcome.text : PrimaryOutcome → String
  | .aBetter => "a_better"
  | .bBetter => "b_better"
  | .bothCorrect => "both_correct"
  | .neither => "neither"

inductive TimingFlag
  | timingABad
  | timingBBad
  deriving DecidableEq

def TimingFlag.text : TimingFlag → String
  | .timingABad => "timing_a_bad"
  | .timingBBad => "timing_b_bad"

structure Parsed where
  sourceKey : String
  bodyKey : String
  sampleId : String
  manualDecision : PrimaryOutcome
  timingFlags : List TimingFlag
  correctionText : String

/-- The review that a decision comes from. -/
structure Review where
  parsed : Parsed
  issueNumber : Int
  issueUrl : String
  actor : String
  goldAgreementFloor : ℚ

/-- The texts of instants, and the aligner's score of a text on an audio clip. -/
structure Settings where
  isoformat : Int → String
  ctcFit : (audio text : String) → (clipStart clipEnd : ℚ) → (language : Option String) → Option ℚ

/-! ## Gold -/

def noGold : Dict String PyVal := [
  ("gold_text", .none),
  ("gold_source", .none),
  ("gold_role", .none),
  ("gold_collected_at", .none)]

def isNumberBelow (value : PyVal) (floor : ℚ) : Bool :=
  match value with
  | .num value => value < floor
  | .bool value => (if value then 1 else 0) < floor
  | _ => true

/-- `value.get(name)`, of something that may not be a mapping. -/
def get (value : PyVal) (name : String) : PyVal := field (value.asDict?.getD []) name

/-- The first label whose candidate is the provider's. -/
def providerLabel (blindMapping : PyVal) : Option String :=
  ((blindMapping.asDict?.getD []).find? fun entry =>
    get entry.2 "role" = .str "provider-align").map Prod.fst

def textOf (value : PyVal) : String := value.asStr?.getD ""

def providerText (evidence : Dict String PyVal) : String :=
  match providerLabel (field evidence "blind_mapping") with
  | some label =>
      if label = "" then ""
      else strip (textOf (get (get (field evidence "metrics") label) "text"))
  | none => ""

section

variable (settings : Settings)

def goldOf (text source : String) (role : PyVal) (clock : Int) : Dict String PyVal := [
  ("gold_text", .str text),
  ("gold_source", .str source),
  ("gold_role", role),
  ("gold_collected_at", .str (settings.isoformat clock))]

def freshGold (review : Review) (evidence : Dict String PyVal) (clock : Int) : Dict String PyVal :=
  match review.parsed.manualDecision with
  | .bothCorrect =>
      if isNumberBelow (get (field evidence "pair_metrics") "text_agreement")
          review.goldAgreementFloor then noGold
      else
        let text := providerText evidence
        if text = "" then noGold
        else goldOf settings text "both_correct" (.str "provider-align") clock
  | .neither =>
      let text := strip review.parsed.correctionText
      if text = "" then noGold else goldOf settings text "reviewer_correction" .none clock
  | _ => noGold

/-- A score goes with the text it was made for. -/
def goldFields (review : Review) (evidence : Dict String PyVal) (clock : Int) : Dict String PyVal :=
  let result := freshGold settings review evidence clock
  if field result "gold_text" ≠ field evidence "gold_text" then
    result ++ [("gold_ctc_fit_score", .none), ("gold_ctc_checked_at", .none)]
  else result

/-! ## Changes of the ledger -/

inductive Error
  | casConflict
  | storage
  | valueError (text : String)
  deriving DecidableEq, Repr

/-- What a review writes of itself. -/
def reviewFields (review : Review) (clock : Int) : Dict String PyVal := [
  ("manual_decision", .str review.parsed.manualDecision.text),
  ("timing_flags", .list (review.parsed.timingFlags.map fun flag => .str flag.text)),
  ("issue_number", .num review.issueNumber),
  ("issue_url", .str review.issueUrl),
  ("reviewed_at", .str (settings.isoformat clock)),
  ("reviewed_by", .str review.actor)]

def withDecision (review : Review) (evidence : Dict String PyVal) (clock : Int) :
    Dict String PyVal :=
  let reviewed := evidence.update (reviewFields settings review clock)
  reviewed.update (goldFields settings review reviewed clock)

def Row.setSample (row : Row) (id : String) (sample : Dict String PyVal) : Row :=
  { row with evidence := row.evidence.set id (.dict sample) }

def applyDecision (review : Review) (clock : Int) : List Row → Except Error (List Row)
  | [] => .error (.valueError "sample evidence not found for issue metadata")
  | row :: rest =>
      if row.sourceKey ≠ review.parsed.sourceKey || row.bodyKey ≠ review.parsed.bodyKey then
        (applyDecision review clock rest).map (row :: ·)
      else
        match row.evidence.get? review.parsed.sampleId with
        | some (.dict evidence) =>
            let decided := withDecision settings review evidence clock
            .ok (row.setSample review.parsed.sampleId decided :: rest)
        | _ => (applyDecision review clock rest).map (row :: ·)

structure Evaluation where
  sourceKey : String
  bodyKey : String
  bodyName : String
  productionDefault : String
  acceptedActiveRecipes : List String
  minimumQualityRank : Option Int
  sampleId : String
  sampledAt : String
  episodeUid : String
  episodeTitle : PyVal
  providerSourceMode : PyVal
  reviewPage : PyVal
  clipStart : ℚ
  clipEnd : ℚ
  metrics : Dict String PyVal
  pairMetrics : Dict String PyVal
  autoOutcome : String
  autoMargin : ℚ
  needsReview : Bool
  blindMapping : Dict String PyVal
  l2Used : Bool

def Evaluation.sample (evaluation : Evaluation) : Dict String PyVal := [
  ("sample_id", .str evaluation.sampleId),
  ("sampled_at", .str evaluation.sampledAt),
  ("episode_uid", .str evaluation.episodeUid),
  ("episode_title", evaluation.episodeTitle),
  ("provider_source_mode", evaluation.providerSourceMode),
  ("review_page", evaluation.reviewPage),
  ("clip_start", .num evaluation.clipStart),
  ("clip_end", .num evaluation.clipEnd),
  ("metrics", .dict evaluation.metrics),
  ("pair_metrics", .dict evaluation.pairMetrics),
  ("auto_outcome", .str evaluation.autoOutcome),
  ("auto_margin", .num evaluation.autoMargin),
  ("needs_review", .bool evaluation.needsReview),
  ("blind_mapping", .dict evaluation.blindMapping),
  ("l2_used", .bool evaluation.l2Used)]

def Evaluation.pendingRow (evaluation : Evaluation) : Row where
  sourceKey := evaluation.sourceKey
  bodyKey := evaluation.bodyKey
  bodyName := evaluation.bodyName
  acceptedRecipePolicy := [
    ("production_default", .str evaluation.productionDefault),
    ("accepted_active_recipes", .list (evaluation.acceptedActiveRecipes.map .str)),
    ("minimum_quality_rank", match evaluation.minimumQualityRank with
      | some rank => .num rank
      | none => .none)]
  evidence := [(evaluation.sampleId, .dict evaluation.sample)]

/-! ## Scoring corrections -/

/-- The files of a machine: its copy of the rollups, the languages of the cities
it knows, and the audio of their episodes. -/
structure Machine where
  rollups : List Row
  languages : Dict String (Option String)
  audio : String → String → Option String

structure Update where
  expectedGoldText : String
  goldCtcFitScore : ℚ
  goldCtcCheckedAt : String

/-- `float(value or 0)`, where it does not raise. -/
def toFloat? (value : PyVal) : Option ℚ :=
  if !value.truthy then some 0
  else
    match value with
    | .num value => some value
    | .bool _ => some 1
    | _ => none

def scoreSample (machine : Machine) (clock : Int) (sourceKey : String) (language : Option String)
    (evidence : Dict String PyVal) : Option (String × Update) :=
  if field evidence "gold_source" ≠ .str "reviewer_correction" ||
      (field evidence "gold_ctc_checked_at").truthy then none
  else
    let text := strip (textOf (field evidence "gold_text"))
    let id := textOf (field evidence "sample_id")
    if text = "" || id = "" then none
    else
      match machine.audio sourceKey (textOf (field evidence "episode_uid")) with
      | none => none
      | some audio =>
          if audio = "" then none
          else
            match toFloat? (field evidence "clip_start"), toFloat? (field evidence "clip_end") with
            | some clipStart, some clipEnd =>
                (settings.ctcFit audio text clipStart clipEnd language).map fun score =>
                  (id, ⟨text, score, settings.isoformat clock⟩)
            | _, _ => none

def scoreRow (machine : Machine) (clock : Int) (row : Row) : List (String × Update) :=
  match machine.languages.get? row.sourceKey with
  | none => []
  | some language => row.evidence.values.filterMap fun sample =>
      sample.asDict?.bind (scoreSample settings machine clock row.sourceKey language)

def scoreRows (machine : Machine) (clock : Int) (rows : List Row) : Dict String Update :=
  Dict.update [] (rows.flatMap (scoreRow settings machine clock))

/-- A score is kept where the text it was made for is still the sample's. -/
def stampSample (update : Update) (sample : Dict String PyVal) : Dict String PyVal :=
  if field sample "gold_source" ≠ .str "reviewer_correction" ||
      field sample "gold_text" ≠ .str update.expectedGoldText ||
      (field sample "gold_ctc_checked_at").truthy then sample
  else (sample.set "gold_ctc_fit_score" (.num update.goldCtcFitScore)).set "gold_ctc_checked_at"
    (.str update.goldCtcCheckedAt)

def stampEvidence (evidence : Dict String PyVal) (scored : String × Update) : Dict String PyVal :=
  match evidence.get? scored.1 with
  | some (.dict sample) => evidence.set scored.1 (.dict (stampSample scored.2 sample))
  | _ => evidence

def applyScores (results : Dict String Update) (rows : List Row) : List Row :=
  rows.map fun row => { row with evidence := results.foldl stampEvidence row.evidence }

/-! ## The ledger object -/

/-- What a stored body parses to. -/
inductive Body
  | ledger (rows : List Row)
  | malformed

def Body.rows : Body → List Row
  | .ledger rows => rows
  | .malformed => []

abbrev Calls (α : Type) : Type := Objects.Session String Body Int Error α

def raised : Objects.Failure → Error
  | .conflict => .casConflict
  | .failed => .storage

def now : Calls Int := Objects.Session.now

def getBytes (key : String) : Calls (Option (Body × ETag)) := Objects.Session.getBytes raised key

def putCas (key : String) (rows : List Row) (condition : Condition) : Calls ETag :=
  Objects.Session.putBytes raised key (.ledger rows) condition

/-- The rows from which a call starts: the ledger's, or the machine's own where
there is no ledger. -/
def currentRows (rollups : List Row) : Option (Body × ETag) → List Row
  | none => normalizeRollups rollups
  | some found => normalizeRollups found.1.rows

/-- `mutate(rows) or rows` -/
def orRows (updated rows : List Row) : List Row := if updated.isEmpty then rows else updated

/-- The durable copy: a failure to upload it is only reported. -/
def writeRollupMirror (rows : List Row) : Calls (List Row) := do
  let _ ← (putCas mirrorKey (normalizeRollups rows) .always).attempt
  return normalizeRollups rows

def mutateRollupsLedger (rollups : List Row) (mutate : Int → List Row → Except Error (List Row)) :
    Nat → Calls (List Row)
  | 0 => throw .casConflict
  | attempts + 1 => do
      let found ← getBytes ledgerKey
      let rows := currentRows rollups found
      let clock ← now
      match mutate clock rows with
      | .error error => throw error
      | .ok changed =>
          let updated := orRows changed rows
          match ← (putCas ledgerKey (normalizeRollups updated)
            (writeCondition (found.map (·.2)))).attempt with
          | .ok _ => writeRollupMirror updated
          | .error .casConflict => mutateRollupsLedger rollups mutate attempts
          | .error error => throw error

def maxAttempts : Nat := 8

def evaluateSample (machine : Machine) (evaluation : Evaluation) : Calls (List Row) :=
  mutateRollupsLedger machine.rollups (fun _ rows => .ok (rows ++ [evaluation.pendingRow]))
    maxAttempts

def ingestReviewDecision (machine : Machine) (review : Review) : Calls (List Row) :=
  mutateRollupsLedger machine.rollups (applyDecision settings review) maxAttempts

/-- The ledger as the scoring reads it; a failed read falls back to the
machine's own copy. -/
def loadRollupsLedger (machine : Machine) : Calls (List Row) := do
  match ← (getBytes ledgerKey).attempt with
  | .ok (some found) => return normalizeRollups found.1.rows
  | _ => return machine.rollups

/-- The scores are made once, outside of the race for the ledger. -/
def scoreLedger (machine : Machine) (rows : List Row) : Calls (List Row) := do
  let clock ← now
  let results := scoreRows settings machine clock rows
  if results.isEmpty then return rows
  else mutateRollupsLedger machine.rollups (fun _ rows => .ok (applyScores results rows)) maxAttempts

def checkGoldCorrections (machine : Machine) : Calls (List Row) := do
  scoreLedger settings machine (← loadRollupsLedger machine)

end

inductive Call
  | evaluateSample (machine : Machine) (evaluation : Evaluation)
  | ingestReviewDecision (machine : Machine) (review : Review)
  | checkGoldCorrections (machine : Machine)

def Call.session (settings : Settings) : Call → Calls (List Row)
  | .evaluateSample machine evaluation => Quality.evaluateSample machine evaluation
  | .ingestReviewDecision machine review => Quality.ingestReviewDecision settings machine review
  | .checkGoldCorrections machine => Quality.checkGoldCorrections settings machine

def reviews (settings : Settings) : Activity (Objects.world String Body Int) where
  Call := Call
  Result := Except Error (List Row)
  task call := (call.session settings).run
  mayStart _ _ := true

end CityPods.Quality
