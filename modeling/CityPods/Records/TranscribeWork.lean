import CityPods.Media.Availability
import CityPods.Records.Durations
import CityPods.Records.Sharding
import Mathlib.Data.Nat.Size

/-! # Transcribe work

The records of a source that have to be transcribed, each with the route that
it takes and with what it costs a shard, and the cost of the source as a whole.
-/

namespace CityPods.Records

open Foundation

/-! ## Episodes -/

structure Episode where
  guid : String
  title : String
  body : Option String
  uid : Option String
  hostedAudioUrl : Option String
  audioKey : Option String
  audioSpecHash : Option String
  materializeError : Option String
  mediaAvailability : Option Media.MediaAvailability
  transcriptSynced : Bool
  transcriptKey : Option String
  transcriptSpecHash : Option String
  transcriptPipelineVersion : Option String
  transcriptTimeoutAttempts : Nat
  transcriptTimeoutLastAttempt : Option String
  sourceDurationSeconds : PyVal
  duration : PyVal
  servedDurationSeconds : PyVal
  audioDurationServed : PyVal
  /-- The text that `transcript_media_hash` digests. -/
  transcriptMedia : String

/-- A text that is neither missing nor empty. -/
def filled (text : Option String) : Bool := text.getD "" ≠ ""

def episodeSourceDurationSeconds (ep : Episode) : Option ℚ :=
  (positiveSeconds ep.sourceDurationSeconds).or (positiveSeconds ep.duration)

def episodeServedDurationSeconds (ep : Episode) : Option ℚ :=
  (positiveSeconds ep.servedDurationSeconds).or (positiveSeconds ep.audioDurationServed)

inductive DurationSource
  | served
  | source
  | unknown
  deriving DecidableEq

def episodeDurationHours (ep : Episode) : ℚ × DurationSource :=
  match episodeServedDurationSeconds ep with
  | some served => (served / 3600, .served)
  | none =>
      match episodeSourceDurationSeconds ep with
      | some source => (source / 3600, .source)
      | none => (0, .unknown)

/-! ## Timeouts -/

/-- Microseconds. -/
def transcriptTimeoutBackoffBase : Int := 24 * 3600 * 1000000

def transcriptTimeoutBackoffMax : Int := 30 * (24 * 3600 * 1000000)

def cappedExponentialBackoff (base cap : Int) (attempts : Nat) : Int :=
  if attempts ≤ 0 then 0
  else if base ≤ 0 ∨ cap ≤ base then cap
  else
    let multiplierCap := max 1 ((cap + base - 1) / base)
    let exponent := attempts - 1
    if (multiplierCap - 1).toNat.size ≤ exponent then cap else min cap (base * 2 ^ exponent)

/-- `timedelta * int`, where no timedelta may go beyond the limit. -/
def scaledWithin (limit delta factor : Int) : Option Int :=
  if -limit ≤ delta * factor ∧ delta * factor ≤ limit then some (delta * factor) else none

/-- Nothing, where the multiplication of the base raises. -/
def cappedExponentialBackoffWithin (limit base cap : Int) (attempts : Nat) : Option Int :=
  if attempts ≤ 0 then some 0
  else if base ≤ 0 ∨ cap ≤ base then some cap
  else
    let multiplierCap := max 1 ((cap + base - 1) / base)
    let exponent := attempts - 1
    if (multiplierCap - 1).toNat.size ≤ exponent then some cap
    else (scaledWithin limit base (2 ^ exponent)).map (min cap)

section

variable {base cap : Int}

/-- The bit length tells exactly when the power brings the base to the cap. -/
theorem size_le_iff_cap_le (positive : 0 < base) (below : base < cap) (exponent : Nat) :
    (max 1 ((cap + base - 1) / base) - 1).toNat.size ≤ exponent ↔ cap ≤ base * 2 ^ exponent := by
  have upper : cap ≤ (cap + base - 1) / base * base := by
    have rest := Int.emod_lt_of_pos (cap + base - 1) positive
    have split := Int.mul_ediv_add_emod (cap + base - 1) base
    rw [Int.mul_comm] at split
    omega
  have lower : (cap + base - 1) / base * base ≤ cap + base - 1 := Int.ediv_mul_le _ positive.ne'
  generalize (cap + base - 1) / base = quotient at upper lower
  have several : 1 < quotient := by
    by_contra few
    have small : quotient * base ≤ 1 * base :=
      Int.mul_le_mul_of_nonneg_right (not_lt.mp few) positive.le
    omega
  rw [max_eq_right several.le, Nat.size_le, Int.toNat_lt (by omega), Nat.cast_pow, Nat.cast_ofNat]
  constructor
  · intro less
    have enough : quotient * base ≤ 2 ^ exponent * base :=
      Int.mul_le_mul_of_nonneg_right (Int.le_of_sub_one_lt less) positive.le
    rw [Int.mul_comm base]
    exact upper.trans enough
  · intro reached
    by_contra more
    have short : 2 ^ exponent * base ≤ (quotient - 1) * base :=
      Int.mul_le_mul_of_nonneg_right (not_lt.mp more) positive.le
    rw [Int.sub_mul, Int.one_mul, Int.mul_comm _ base] at short
    omega

theorem cappedExponentialBackoff_eq_min (positive : 0 < base) (below : base < cap)
    {attempts : Nat} (attempted : 1 ≤ attempts) :
    cappedExponentialBackoff base cap attempts = min cap (base * 2 ^ (attempts - 1)) := by
  rw [cappedExponentialBackoff, if_neg (by omega), if_neg (by omega)]
  dsimp only
  split
  · next beyond =>
    rw [min_eq_left ((size_le_iff_cap_le positive below _).mp beyond)]
  · rfl

theorem cappedExponentialBackoffWithin_eq (positive : 0 < base) (below : base < cap)
    {limit : Int} (enough : cap ≤ limit) (attempts : Nat) :
    cappedExponentialBackoffWithin limit base cap attempts =
      some (cappedExponentialBackoff base cap attempts) := by
  have valid : ¬ (base ≤ 0 ∨ cap ≤ base) := by omega
  unfold cappedExponentialBackoffWithin cappedExponentialBackoff
  by_cases started : attempts ≤ 0
  · rw [if_pos started, if_pos started]
  · rw [if_neg started, if_neg started, if_neg valid, if_neg valid]
    dsimp only
    by_cases beyond : (max 1 ((cap + base - 1) / base) - 1).toNat.size ≤ attempts - 1
    · rw [if_pos beyond, if_pos beyond]
    · have short := mt (size_le_iff_cap_le positive below (attempts - 1)).mpr beyond
      have above : 0 < base * 2 ^ (attempts - 1) := by positivity
      rw [if_neg beyond, if_neg beyond, scaledWithin, if_pos (by omega), Option.map_some]

theorem cappedExponentialBackoff_mono (positive : 0 < base) (below : base < cap)
    {attempts later : Nat} (more : attempts ≤ later) :
    cappedExponentialBackoff base cap attempts ≤ cappedExponentialBackoff base cap later := by
  rcases Nat.eq_zero_or_pos attempts with rfl | attempted
  · rcases Nat.eq_zero_or_pos later with rfl | retried
    · exact le_refl _
    · rw [cappedExponentialBackoff_eq_min positive below retried]
      have above : 0 < base * 2 ^ (later - 1) := by positivity
      exact le_min (positive.trans below).le above.le
  · rw [cappedExponentialBackoff_eq_min positive below attempted,
      cappedExponentialBackoff_eq_min positive below (Nat.le_trans attempted more)]
    have grown : (2 : Int) ^ (attempts - 1) ≤ 2 ^ (later - 1) :=
      pow_le_pow_right₀ one_le_two (Nat.sub_le_sub_right more 1)
    exact min_le_min_left cap (Int.mul_le_mul_of_nonneg_left grown positive.le)

/-- From the first attempt on, the delay is the least of the cap and the doubled base; no
multiplication goes beyond the cap, and so none beyond twice the cap or the greatest timedelta;
and the delays never decrease. -/
theorem cappedExponentialBackoff_exact (positive : 0 < base) (below : base < cap) :
    (∀ attempts, 1 ≤ attempts →
      cappedExponentialBackoff base cap attempts = min cap (base * 2 ^ (attempts - 1))) ∧
    (∀ limit attempts, cap ≤ limit → cappedExponentialBackoffWithin limit base cap attempts =
      some (cappedExponentialBackoff base cap attempts)) ∧
    ∀ attempts later, attempts ≤ later →
      cappedExponentialBackoff base cap attempts ≤ cappedExponentialBackoff base cap later :=
  ⟨fun _ attempted => cappedExponentialBackoff_eq_min positive below attempted,
    fun _ attempts enough => cappedExponentialBackoffWithin_eq positive below enough attempts,
    fun _ _ more => cappedExponentialBackoff_mono positive below more⟩

theorem transcript_timeout_never_overflows :
    transcriptTimeoutBackoffBase < transcriptTimeoutBackoffMax ∧
      ∀ limit attempts, transcriptTimeoutBackoffMax ≤ limit →
        cappedExponentialBackoffWithin limit transcriptTimeoutBackoffBase
            transcriptTimeoutBackoffMax attempts =
          some (cappedExponentialBackoff transcriptTimeoutBackoffBase transcriptTimeoutBackoffMax
            attempts) :=
  ⟨by decide, (cappedExponentialBackoff_exact (by decide) (by decide)).2.1⟩

end

/-- `fromisoformat` reads a text as microseconds of universal time. -/
def parseIsoUtc (fromisoformat : String → Option Int) (value : Option String) : Option Int :=
  if filled value then value.bind fromisoformat else none

def transcriptTimeoutBackoffUntil (fromisoformat : String → Option Int) (ep : Episode) :
    Option Int :=
  if ep.transcriptTimeoutAttempts ≤ 0 then none
  else
    (parseIsoUtc fromisoformat ep.transcriptTimeoutLastAttempt).map fun last =>
      last + cappedExponentialBackoff transcriptTimeoutBackoffBase transcriptTimeoutBackoffMax
        ep.transcriptTimeoutAttempts

/-! ## Routes -/

inductive TranscribeRoute
  | localRunner
  | dispatch
  | blocked
  | inflight
  | copy
  deriving DecidableEq

def TranscribeRoute.ofName (name : String) : Option TranscribeRoute :=
  if name = "local" then some .localRunner
  else if name = "dispatch" then some .dispatch
  else if name = "blocked" then some .blocked
  else if name = "inflight" then some .inflight
  else if name = "copy" then some .copy
  else none

inductive TranscribeError
  /-- `record_to_episode` raises. -/
  | record (message : String)
  /-- unknown transcribe shard route -/
  | unknownRoute (route : String)
  | missingRecord (uid : String)
  | shards (error : ShardError String)

/-- A computation that may read and change what the predicates given to it remember. -/
abbrev Transcribing (σ α : Type) := StateT σ (Except TranscribeError) α

/-- What a source is asked for. -/
structure TranscribeOptions (σ : Type) where
  asrEnabled : Bool
  asrPipelineVersion : String
  localMaxDurationHours : ℚ
  routeClassifier : Option (Episode → Option ℚ → Transcribing σ String)
  transcriptStale : Option (Episode → Transcribing σ Bool)
  fromisoformat : String → Option Int
  now : Int

section

variable {σ ρ : Type} (options : TranscribeOptions σ)

/-- `text.rsplit("/", 1)[-1]` -/
def afterLastSlash (text : String) : List Char :=
  (text.toList.reverse.takeWhile (· ≠ '/')).reverse

def isAsr (ep : Episode) : Bool :=
  let owner := if filled ep.uid then ep.uid.getD "" else ep.guid
  (owner ++ "-asr-").toList.isPrefixOf (afterLastSlash (ep.transcriptKey.getD ""))

def currentVersion (ep : Episode) : Bool :=
  ep.transcriptPipelineVersion = some options.asrPipelineVersion

def transcribable (ep : Episode) : Bool :=
  filled ep.audioKey && filled ep.audioSpecHash && filled ep.hostedAudioUrl &&
    !(ep.mediaAvailability.map (·.isWithheld)).getD false && !filled ep.materializeError

def copyMigration (ep : Episode) : Transcribing σ Bool :=
  match options.transcriptStale with
  | some stale => if isAsr ep && currentVersion options ep then stale ep else pure false
  | none => pure false

def backingOff (ep : Episode) : Bool :=
  match transcriptTimeoutBackoffUntil options.fromisoformat ep with
  | some expires => options.now < expires
  | none => false

def knownSeconds (ep : Episode) : Option ℚ :=
  if 0 < (episodeDurationHours ep).1 then some ((episodeDurationHours ep).1 * 3600) else none

def defaultRoute (seconds : Option ℚ) : TranscribeRoute :=
  match seconds with
  | some seconds =>
      if 0 < options.localMaxDurationHours ∧ options.localMaxDurationHours * 3600 < seconds then
        .blocked
      else .localRunner
  | none => .localRunner

def classify (ep : Episode) : Transcribing σ TranscribeRoute :=
  match options.routeClassifier with
  | some classifier => do
      let name ← classifier ep (knownSeconds ep)
      match TranscribeRoute.ofName name with
      | some route => pure route
      | none => StateT.lift (.error (.unknownRoute name))
  | none => pure (defaultRoute options (knownSeconds ep))

/-- The route of an episode whose transcript is missing or out of date. -/
def routeUntimed (ep : Episode) : Transcribing σ (Option (TranscribeRoute × Option ℚ)) :=
  if backingOff options ep then pure (some (.blocked, none))
  else do
    let route ← classify options ep
    pure (some (route, knownSeconds ep))

def transcribeRoute (ep : Episode) : Transcribing σ (Option (TranscribeRoute × Option ℚ)) :=
  if !transcribable ep then pure none
  else if ep.transcriptSynced then do
    let copied ← copyMigration options ep
    if copied then pure (some (.copy, none))
    else if isAsr ep && !currentVersion options ep then routeUntimed options ep
    else pure none
  else routeUntimed options ep

/-- A record that is work, its route and its duration. -/
abbrev Routed := String × TranscribeRoute × Option ℚ

variable (recordToEpisode : ρ → Except String Episode)

def toEpisode (record : ρ) : Transcribing σ Episode :=
  StateT.lift ((recordToEpisode record).mapError .record)

def routeRecords : Dict String ρ → Transcribing σ (List Routed)
  | [] => pure []
  | (uid, record) :: rest => do
      let ep ← toEpisode recordToEpisode record
      let found ← transcribeRoute options ep
      let later ← routeRecords rest
      match found with
      | none => pure later
      | some (route, seconds) => pure ((uid, route, seconds) :: later)

def iterTranscribeRoutes (records : Dict String ρ) : Transcribing σ (List Routed) :=
  if !options.asrEnabled then pure [] else routeRecords options recordToEpisode records

end

/-! ## Weights -/

def transcribeDispatchWeightSeconds : ℚ := 60

def transcribeBlockedWeightSeconds : ℚ := 1

def transcribeCopyWeightSeconds : ℚ := 1

def transcribeUnknownLocalWeightSeconds : ℚ := 2 * 3600

structure TranscribeShardWork where
  localSeconds : ℚ := 0
  localItems : Nat := 0
  dispatchItems : Nat := 0
  blockedItems : Nat := 0
  inflightItems : Nat := 0
  copyItems : Nat := 0

def TranscribeShardWork.weightAt (work : TranscribeShardWork)
    (dispatchSeconds blockedSeconds : ℚ) : ℚ :=
  work.localSeconds + work.dispatchItems * dispatchSeconds + work.blockedItems * blockedSeconds +
    work.copyItems * transcribeCopyWeightSeconds

/-- `shard_weight()` with its defaults. -/
def TranscribeShardWork.shardWeight (work : TranscribeShardWork) : ℚ :=
  work.weightAt transcribeDispatchWeightSeconds transcribeBlockedWeightSeconds

/-- The counters of the estimate. -/
structure RouteTally extends TranscribeShardWork where
  unknownLocalItems : Nat := 0

def RouteTally.add (tally : RouteTally) : Routed → RouteTally
  | (_, .localRunner, some seconds) =>
      { tally with localItems := tally.localItems + 1, localSeconds := tally.localSeconds + seconds }
  | (_, .localRunner, none) =>
      { tally with
        localItems := tally.localItems + 1
        unknownLocalItems := tally.unknownLocalItems + 1 }
  | (_, .dispatch, _) => { tally with dispatchItems := tally.dispatchItems + 1 }
  | (_, .blocked, _) => { tally with blockedItems := tally.blockedItems + 1 }
  | (_, .inflight, _) => { tally with inflightItems := tally.inflightItems + 1 }
  | (_, .copy, _) => { tally with copyItems := tally.copyItems + 1 }

def estimateOf (unknownLocalSeconds : ℚ) (routes : List Routed) : TranscribeShardWork :=
  let tally := routes.foldl RouteTally.add {}
  if tally.unknownLocalItems ≠ 0 then
    let knownLocalItems := tally.localItems - tally.unknownLocalItems
    let perItem :=
      if knownLocalItems ≠ 0 then tally.localSeconds / knownLocalItems else max 0 unknownLocalSeconds
    { tally.toTranscribeShardWork with
      localSeconds := tally.localSeconds + tally.unknownLocalItems * perItem }
  else tally.toTranscribeShardWork

def knownLocalSeconds (routes : List Routed) : List ℚ :=
  routes.filterMap fun routed => if routed.2.1 = .localRunner then routed.2.2 else none

def itemWeight (unknownPerItem : ℚ) : Routed → Option (String × ℚ)
  | (_, .inflight, _) => none
  | (uid, .dispatch, _) => some (uid, transcribeDispatchWeightSeconds)
  | (uid, .blocked, _) => some (uid, transcribeBlockedWeightSeconds)
  | (uid, .copy, _) => some (uid, transcribeCopyWeightSeconds)
  | (uid, .localRunner, some seconds) => some (uid, seconds)
  | (uid, .localRunner, none) => some (uid, unknownPerItem)

def itemsOf (unknownLocalSeconds : ℚ) (routes : List Routed) : List (String × ℚ) :=
  let known := knownLocalSeconds routes
  let unknownPerItem :=
    if known ≠ [] then known.sum / known.length else max 0 unknownLocalSeconds
  routes.filterMap (itemWeight unknownPerItem)

section

variable {σ ρ : Type} (options : TranscribeOptions σ)
  (recordToEpisode : ρ → Except String Episode) (unknownLocalSeconds : ℚ)
  (records : Dict String ρ)

def estimateTranscribeShardWork : Transcribing σ TranscribeShardWork := do
  let routes ← iterTranscribeRoutes options recordToEpisode records
  pure (estimateOf unknownLocalSeconds routes)

def pendingTranscribeItems : Transcribing σ (List (String × ℚ)) := do
  let routes ← iterTranscribeRoutes options recordToEpisode records
  pure (itemsOf unknownLocalSeconds routes)

end

/-! ## The items add up -/

def RouteTally.unknownWeight (tally : RouteTally) (perItem : ℚ) : ℚ :=
  tally.shardWeight + tally.unknownLocalItems * perItem

theorem sum_itemWeight (perItem : ℚ) (routes : List Routed) (tally : RouteTally) :
    (routes.foldl RouteTally.add tally).unknownWeight perItem =
      tally.unknownWeight perItem + ((routes.filterMap (itemWeight perItem)).map Prod.snd).sum := by
  induction routes generalizing tally with
  | nil => simp
  | cons routed rest induction =>
      have step : (tally.add routed).unknownWeight perItem = tally.unknownWeight perItem +
          (((itemWeight perItem routed).map Prod.snd).getD 0) := by
        obtain ⟨uid, route, seconds⟩ := routed
        cases route <;> cases seconds <;>
          simp [RouteTally.add, RouteTally.unknownWeight, TranscribeShardWork.shardWeight,
            TranscribeShardWork.weightAt, itemWeight] <;> ring
      rw [List.foldl_cons, induction, step, List.filterMap_cons]
      cases itemWeight perItem routed with
      | none => simp
      | some item => simp [add_assoc]

/-- What the counters say of the known durations. -/
theorem tally_known (routes : List Routed) (tally : RouteTally) :
    (routes.foldl RouteTally.add tally).localSeconds =
        tally.localSeconds + (knownLocalSeconds routes).sum ∧
      (routes.foldl RouteTally.add tally).localItems + tally.unknownLocalItems =
        tally.localItems + (knownLocalSeconds routes).length +
          (routes.foldl RouteTally.add tally).unknownLocalItems := by
  induction routes generalizing tally with
  | nil => simp [knownLocalSeconds]
  | cons routed rest induction =>
      have later := induction (tally.add routed)
      obtain ⟨uid, route, seconds⟩ := routed
      cases route <;> cases seconds <;>
        simp [RouteTally.add, knownLocalSeconds] at later ⊢ <;>
        exact ⟨by linarith [later.1], by omega⟩

theorem perItem_eq (unknownLocalSeconds : ℚ) (routes : List Routed) :
    (let tally := routes.foldl RouteTally.add {}
      if tally.localItems - tally.unknownLocalItems ≠ 0 then
        tally.localSeconds / (tally.localItems - tally.unknownLocalItems : Nat)
      else max 0 unknownLocalSeconds) =
      if knownLocalSeconds routes ≠ [] then
        (knownLocalSeconds routes).sum / (knownLocalSeconds routes).length
      else max 0 unknownLocalSeconds := by
  have known := tally_known routes {}
  have seconds : (routes.foldl RouteTally.add {}).localSeconds = (knownLocalSeconds routes).sum := by
    rw [known.1, zero_add]
  have count : (routes.foldl RouteTally.add {}).localItems -
      (routes.foldl RouteTally.add {}).unknownLocalItems = (knownLocalSeconds routes).length := by
    have items := known.2
    simp only [Nat.add_zero, Nat.zero_add] at items
    omega
  simp only [seconds, count, ne_eq, List.length_eq_zero_iff]

theorem estimateOf_shardWeight (unknownLocalSeconds : ℚ) (routes : List Routed) :
    (estimateOf unknownLocalSeconds routes).shardWeight =
      ((itemsOf unknownLocalSeconds routes).map Prod.snd).sum := by
  have perItem := perItem_eq unknownLocalSeconds routes
  have sum := sum_itemWeight (if knownLocalSeconds routes ≠ [] then
    (knownLocalSeconds routes).sum / (knownLocalSeconds routes).length
    else max 0 unknownLocalSeconds) routes {}
  have start (weight : ℚ) : RouteTally.unknownWeight {} weight = 0 := by
    simp [RouteTally.unknownWeight, TranscribeShardWork.shardWeight, TranscribeShardWork.weightAt]
  rw [start, zero_add] at sum
  rw [itemsOf, ← sum, ← perItem, estimateOf]
  split
  · simp only [RouteTally.unknownWeight, TranscribeShardWork.shardWeight,
      TranscribeShardWork.weightAt]
    ring
  · next none =>
    rw [RouteTally.unknownWeight, not_not.mp none, Nat.cast_zero, zero_mul, add_zero]

/-- The weights of the items add up to the weight of the source: from every
state of the predicates, with every error that they or the records raise. -/
theorem sum_pendingTranscribeItems {σ ρ : Type} (options : TranscribeOptions σ)
    (recordToEpisode : ρ → Except String Episode) (unknownLocalSeconds : ℚ)
    (records : Dict String ρ) :
    (do
      let items ← pendingTranscribeItems options recordToEpisode unknownLocalSeconds records
      pure (items.map Prod.snd).sum) =
    (do
      let work ← estimateTranscribeShardWork options recordToEpisode unknownLocalSeconds records
      pure work.shardWeight) := by
  rw [pendingTranscribeItems, estimateTranscribeShardWork, bind_assoc, bind_assoc]
  congr 1
  funext routes
  rw [pure_bind, pure_bind, estimateOf_shardWeight]

end CityPods.Records
