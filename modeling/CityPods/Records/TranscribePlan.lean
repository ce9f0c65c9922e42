import CityPods.Foundation.Sha
import CityPods.Foundation.Stateful
import CityPods.Records.ShardBalance
import CityPods.Records.TranscribeWork
import Mathlib.Data.String.Basic

/-! # The transcribe plan

Which shard transcribes which episode: what is left to transcribe of every
source, put together where the recording and the recipe are the same.
-/

namespace CityPods.Records

open Foundation Foundation.Stateful

def isLowerOrDigit (char : Char) : Bool :=
  ('a' ≤ char && char ≤ 'z') || ('0' ≤ char && char ≤ '9')

/-- `^[a-z0-9][a-z0-9-]{0,63}$` -/
def isSourceId : List Char → Bool
  | [] => false
  | first :: rest =>
      isLowerOrDigit first && rest.length ≤ 63 &&
        rest.all fun char => isLowerOrDigit char || char = '-'

structure SourceId where
  text : String
  valid : isSourceId text.toList = true

/-- What planning reads of a city. -/
structure City where
  provider : String
  /-- The source in JSON, without the selectors of its bodies. -/
  source : String
  sourceId : Option SourceId
  podcastAuthor : String
  asrEnabled : Bool
  asrModel : String
  asrLanguage : String
  asrComputeType : String
  asrBeamSize : Nat

/-- `hashlib.sha1(text.encode()).hexdigest()[:12]` -/
def shortDigest (text : String) : String := String.ofList ((hexDigits 40 (sha1 text)).take 12)

def sourceKey (city : City) : String :=
  match city.sourceId with
  | some sourceId => sourceId.text
  | none => shortDigest (city.provider ++ "|" ++ city.source)

/-- The inputs that a transcript is a function of. -/
structure AsrSpec where
  v : String
  media : String
  model : String
  align : Option String
  language : Option String
  computeType : Option String
  beamSize : Option Nat
  initialPrompt : Option String

structure Snapshot (ρ : Type) where
  archive : String → Option (Dict String ρ)
  distinct : ∀ {key records}, archive key = some records → records.keys.Nodup

/-- `dumps` writes a specification in JSON. -/
structure Planning (ρ : Type) where
  asrPipelineVersion : String
  localMaxDurationHours : ℚ
  now : Int
  fromisoformat : String → Option Int
  recordToEpisode : ρ → Except String Episode
  dumps : AsrSpec → String

def transcriptMediaHash (ep : Episode) : String := shortDigest ep.transcriptMedia

def asrInitialPrompt (author : String) (body : Option String) (title : String) : String :=
  ". ".intercalate ([author, body.getD "", title].filter (· ≠ ""))

/-- The memory of the recipes, by the identity that an episode has. -/
abbrev RecipeCache := Dict (Option String) String

structure PendingEpisode where
  source : String
  uid : String
  recipe : String
  weight : ℚ

section

variable {ρ : Type} (planning : Planning ρ) (city : City)

def asrSpecHash (ep : Episode) : String :=
  shortDigest (planning.dumps
    { v := planning.asrPipelineVersion
      media := transcriptMediaHash ep
      model := city.asrModel
      align := none
      language := if city.asrLanguage = "" then none else some city.asrLanguage
      computeType := some city.asrComputeType
      beamSize := some city.asrBeamSize
      initialPrompt := some (asrInitialPrompt city.podcastAuthor ep.body ep.title) })

def recipeHash (ep : Episode) : Transcribing RecipeCache String :=
  remembered ep.uid (asrSpecHash planning city ep)

/-- A recipe is known and is no longer the right one. -/
def transcriptStale (ep : Episode) : Transcribing RecipeCache Bool :=
  if filled ep.transcriptSpecHash then do
    let recipe ← recipeHash planning city ep
    pure (ep.transcriptSpecHash ≠ some recipe)
  else pure false

def transcribeOptions {σ : Type} (stale : Episode → Transcribing σ Bool) : TranscribeOptions σ :=
  { asrEnabled := city.asrEnabled
    asrPipelineVersion := planning.asrPipelineVersion
    localMaxDurationHours := planning.localMaxDurationHours
    routeClassifier := none
    transcriptStale := some stale
    fromisoformat := planning.fromisoformat
    now := planning.now }

/-- What is left to transcribe of a source, for a rule of what is stale. -/
def pendingItems {σ : Type} (stale : Episode → Transcribing σ Bool) (records : Dict String ρ) :
    Transcribing σ (List (String × ℚ)) :=
  pendingTranscribeItems (transcribeOptions planning city stale) planning.recordToEpisode
    transcribeUnknownLocalWeightSeconds records

def findRecord (records : Dict String ρ) (uid : String) : Except TranscribeError ρ :=
  match records.get? uid with
  | some record => .ok record
  | none => .error (.missingRecord uid)

def withRecipes (key : String) (records : Dict String ρ) :
    List (String × ℚ) → Transcribing RecipeCache (List PendingEpisode)
  | [] => pure []
  | (uid, weight) :: rest => do
      let record ← StateT.lift (findRecord records uid)
      let ep ← toEpisode planning.recordToEpisode record
      let recipe ← recipeHash planning city ep
      let later ← withRecipes key records rest
      pure (⟨key, uid, recipe, weight⟩ :: later)

def sourcePending (key : String) (records : Dict String ρ) :
    Transcribing RecipeCache (List PendingEpisode) := do
  let items ← pendingItems planning city (transcriptStale planning city) records
  withRecipes planning city key records items

end

def episodeKey (source uid : String) : String := source ++ "/" ++ uid

def PendingEpisode.episodeKey (pending : PendingEpisode) : String :=
  Records.episodeKey pending.source pending.uid

def PendingEpisode.workKey (pending : PendingEpisode) : String := pending.uid ++ "/" ++ pending.recipe

/-- `max(weights)` -/
def largest (weights : List ℚ) : ℚ := weights.max?.getD 0

def largestWeight (members : List PendingEpisode) : ℚ := largest (members.map (·.weight))

structure ShardPlan where
  numShards : Nat
  assignment : Dict String Nat
  weights : Dict String ℚ

/-- `sorted(members)` -/
def sortedMembers (members : List PendingEpisode) : List (String × ℚ) :=
  (members.map fun member => (member.episodeKey, member.weight)).insertionSort
    fun first second => toLex first ≤ toLex second

def planGroup (assignment : Dict String Nat) (group : String × List PendingEpisode) :
    List (String × Nat × ℚ) :=
  (sortedMembers group.2).zipIdx.map fun indexed =>
    (indexed.1.1, shardIn assignment group.1,
      if indexed.2 = 0 then largestWeight group.2 else 0)

section

variable {ρ : Type} (planning : Planning ρ) (snapshot : Snapshot ρ)

/-- A key that two cities have belongs to the later one. -/
def sourceCity (cities : List City) : Dict String City :=
  Dict.update [] (cities.map fun city => (sourceKey city, city))

def pendingOf (source : String × City) : Except TranscribeError (List PendingEpisode) :=
  match snapshot.archive source.1 with
  | none => .ok []
  | some records => (sourcePending planning source.2 source.1 records).run' []

def allPending (sources : Dict String City) : Except TranscribeError (List PendingEpisode) := do
  let pending ← sources.mapM (pendingOf planning snapshot)
  pure pending.flatten

def planOf (numShards : Nat) (pending : List PendingEpisode) : Except TranscribeError ShardPlan := do
  let grouped := Dict.groupOn PendingEpisode.workKey pending
  let groupWeights := grouped.map fun group => (group.1, largestWeight group.2)
  let assignment ←
    (shardAssignment grouped.keys numShards (some groupWeights)).mapError .shards
  let planned := grouped.sortKeys.flatMap (planGroup assignment)
  pure
    { numShards
      assignment := Dict.update [] (planned.map fun entry => (entry.1, entry.2.1))
      weights := Dict.update [] (planned.map fun entry => (entry.1, entry.2.2)) }

/-- `create_shard_plan` for the transcribe lane. -/
def createTranscribePlan (cities : List City) (numShards : Nat) :
    Except TranscribeError ShardPlan := do
  if numShards < 1 then .error (.shards .tooFewShards)
  else
    let pending ← allPending planning snapshot (sourceCity cities)
    planOf numShards pending

end

end CityPods.Records
