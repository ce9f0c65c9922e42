import Mathlib.Data.List.Sort
import Mathlib.Tactic.Linarith
import Mathlib.Tactic.Ring
import CityPods.Foundation.JsonStrings
import CityPods.Foundation.Sha
import CityPods.Moments.Grounding

/-! # Quote clips

The window of a share clip around a grounded quote, and when it holds the quote
and the rows that the safety gate asks for.
-/

namespace CityPods.Moments

open Foundation
open Foundation.Whitespace (strip)

def minSeconds : ℚ := 8

def maxSeconds : ℚ := 90

def paddingSeconds : ℚ := 3 / 2

def promptVersion : String := "2"

def framingProfile : String := "social-vertical-opencv-mouth-motion-v1"

def padded (bounds span : Span) : Span :=
  (max bounds.1 (span.1 - paddingSeconds), min bounds.2 (span.2 + paddingSeconds))

/-- A window that is too short is widened on both sides, and shifted where it meets a bound. -/
def widened (bounds window : Span) : Span :=
  let shortfall := minSeconds - (window.2 - window.1)
  if 0 < shortfall then
    let start := max bounds.1 (window.1 - shortfall / 2)
    let stop := min bounds.2 (start + minSeconds)
    (max bounds.1 (stop - minSeconds), stop)
  else window

def clipWindow (quoteStart quoteEnd : ℚ) (bounds : Span) : Option Span :=
  let window := widened bounds (padded bounds (quoteStart, quoteEnd))
  if window.2 - window.1 < minSeconds ∨ maxSeconds < window.2 - window.1 then none
  else some window

/-- The earliest start and the latest end of the rows. -/
def transcriptBounds (rows : List Row) : Option Span :=
  match (rows.map Row.start).min?, (rows.map Row.stop).max? with
  | some start, some stop => some (start, stop)
  | _, _ => none

/-! ## Candidates -/

/-- A pull quote as the model returns it; `none` where a field is missing. -/
structure RawCandidate where
  quote : Option String
  chapterId : Option String := none
  qualityScore : Option ℚ := none
  confidence : Option ℚ := none
  why : Option String := none

inductive Admission
  | shadow
  | admitted
  | admittedTextOnly
  | rejected
  deriving DecidableEq

structure QuoteCandidate where
  candidateId : String := ""
  feature : String := "pull-quote"
  sourceKind : String := "llm"
  assessmentKind : String := "quality-admission"
  episodeUid : String
  chapterId : Option String
  quote : String
  why : String
  qualityScore : ℚ
  confidence : ℚ
  start : ℚ
  stop : ℚ
  quoteStart : ℚ
  quoteEnd : ℚ
  timingSource : TimingSource
  providerModel : String
  promptVersion : String
  meetingFamily : String
  durationBucket : String
  framingProfile : String
  recipeHash : String
  manualStatus : Option String := none
  admission : Admission := .shadow
  display : Bool := false

def durationBucket (seconds : ℚ) : String :=
  if seconds < 20 then "8-19" else if seconds < 45 then "20-44" else "45-90"

def orDefault (text default : String) : String := if text = "" then default else text

/-- The quality-calibration dimensions. A candidate has no judge yet. -/
def candidateMatrixKey (candidate : QuoteCandidate) : List (String × Option String) :=
  [("feature", orDefault candidate.feature "pull-quote"),
    ("provider_model", candidate.providerModel),
    ("prompt_version", orDefault candidate.promptVersion promptVersion),
    ("meeting_family", orDefault candidate.meetingFamily "default"),
    ("duration_bucket", orDefault candidate.durationBucket "unknown"),
    ("framing_profile", orDefault candidate.framingProfile "default"),
    ("judge_model", ""), ("judge_prompt_version", ""), ("judge_schema_version", "")]

/-- The writer escapes the last ASCII character too. -/
def jsonChar (char : Char) : List Char :=
  if char = '\x7f' then ['\\', 'u', '0', '0', '7', 'f'] else JsonStrings.escapeChar char

def jsonText (text : String) : String :=
  String.ofList ('"' :: text.toList.flatMap jsonChar ++ ['"'])

def jsonObject (entries : List (String × Option String)) : String :=
  let sorted := entries.insertionSort fun first second => first.1 ≤ second.1
  let written := sorted.map fun entry =>
    jsonText entry.1 ++ ":" ++ (entry.2.map jsonText).getD "null"
  String.ofList ['\x7b'] ++ ",".intercalate written ++ String.ofList ['\x7d']

def candidateId (candidate : QuoteCandidate) : String :=
  let identity := candidateMatrixKey candidate ++
    [("episode_uid", some candidate.episodeUid), ("chapter_id", candidate.chapterId),
      ("quote", some candidate.quote), ("recipe_hash", some candidate.recipeHash)]
  "r6-" ++ String.ofList ((sha1Hex (jsonObject identity)).toList.take 20)

/-- What a candidate is normalised for. -/
structure Extraction where
  episodeUid : String
  providerModel : String
  recipe : String
  meetingFamily : String

def RawCandidate.quoteText (candidate : RawCandidate) : String := strip (candidate.quote.getD "")

def quoteCandidate (extraction : Extraction) (candidate : RawCandidate) (span : Span)
    (source : TimingSource) (window : Span) : QuoteCandidate :=
  let value : QuoteCandidate := {
    episodeUid := extraction.episodeUid
    chapterId := candidate.chapterId
    quote := candidate.quoteText
    why := String.ofList ((candidate.why.getD "").toList.take 400)
    qualityScore := candidate.qualityScore.getD 0
    confidence := candidate.confidence.getD 0
    start := window.1
    stop := window.2
    quoteStart := span.1
    quoteEnd := span.2
    timingSource := source
    providerModel := extraction.providerModel
    promptVersion := promptVersion
    meetingFamily := extraction.meetingFamily
    durationBucket := durationBucket (window.2 - window.1)
    framingProfile := framingProfile
    recipeHash := extraction.recipe }
  { value with candidateId := candidateId value }

def normalizeQuoteCandidate (extraction : Extraction) (rows : List Row) (words : List Word)
    (candidate : RawCandidate) : Option QuoteCandidate :=
  match quoteTiming candidate.quoteText rows words, transcriptBounds rows with
  | some (span, source), some bounds =>
      (clipWindow span.1 span.2 bounds).map (quoteCandidate extraction candidate span source)
  | _, _ => none

/-- The clip is of a valid length and covers the rows of its quote. -/
def quoteSafetyGate (candidate : QuoteCandidate) (rows : List Row) : Bool :=
  match transcriptRegion candidate.quote rows with
  | none => false
  | some grounded =>
      let duration := candidate.stop - candidate.start
      decide (minSeconds ≤ duration) && decide (duration ≤ maxSeconds) &&
        decide (candidate.start ≤ grounded.1) && decide (grounded.2 ≤ candidate.stop)

/-! ## The window -/

section

variable {bounds cue span : Span}

/-- The cue lies within the padded span or, where that is too short, within the eight seconds
about its middle, shifted into the transcript. -/
def Shown (bounds cue span : Span) : Prop :=
  if minSeconds ≤ (padded bounds span).2 - (padded bounds span).1 then
    span.1 - paddingSeconds ≤ cue.1 ∧ cue.2 ≤ span.2 + paddingSeconds
  else
    let middle := ((padded bounds span).1 + (padded bounds span).2) / 2
    (middle - minSeconds / 2 ≤ cue.1 ∨ bounds.2 - minSeconds ≤ cue.1) ∧
      (cue.2 ≤ middle + minSeconds / 2 ∨ cue.2 ≤ bounds.1 + minSeconds)

/-- What the timing of the words has to satisfy. -/
structure Framed (bounds cue span : Span) : Prop where
  starts : bounds.1 ≤ span.1
  stops : span.2 ≤ bounds.2
  shown : Shown bounds cue span

/-- A span that may be chosen for a cue of the transcript. -/
structure Near (bounds cue span : Span) : Prop where
  opens : bounds.1 ≤ cue.1
  closes : cue.2 ≤ bounds.2
  lasts : cue.1 < cue.2
  runs : span.1 < span.2
  after : cue.1 - 1 ≤ span.1
  before : span.1 ≤ cue.2 + 1

/-- The start of the window of the minimum length about the middle, shifted into the
transcript. -/
def centred (bounds : Span) (middle : ℚ) : ℚ :=
  max bounds.1 (min (middle - minSeconds / 2) (bounds.2 - minSeconds))

variable {window : Span}

theorem widened_long (enough : minSeconds ≤ window.2 - window.1) :
    widened bounds window = window :=
  if_neg (by linarith)

theorem widened_short (short : window.2 - window.1 < minSeconds)
    (fits : minSeconds ≤ bounds.2 - bounds.1) :
    widened bounds window =
      (centred bounds ((window.1 + window.2) / 2),
        centred bounds ((window.1 + window.2) / 2) + minSeconds) := by
  have middle : window.1 - (minSeconds - (window.2 - window.1)) / 2 =
      (window.1 + window.2) / 2 - minSeconds / 2 := by ring
  have room : max bounds.1 (bounds.2 - minSeconds) = bounds.2 - minSeconds :=
    max_eq_right (by linarith)
  have stop : min bounds.2
      (max bounds.1 (window.1 - (minSeconds - (window.2 - window.1)) / 2) + minSeconds) =
        centred bounds ((window.1 + window.2) / 2) + minSeconds := by
    rw [centred, max_min_distrib_left, room, middle, ← min_add_add_right, sub_add_cancel, min_comm]
  unfold widened
  simp only
  rw [if_pos (by linarith), stop, add_sub_cancel_right, centred, ← max_assoc, max_self]

theorem widened_tight (short : window.2 - window.1 < minSeconds)
    (tight : bounds.2 - bounds.1 < minSeconds) :
    (widened bounds window).2 - (widened bounds window).1 < minSeconds := by
  unfold widened
  simp only
  rw [if_pos (by linarith)]
  calc
    _ ≤ bounds.2 - bounds.1 := sub_le_sub (min_le_left ..) (le_max_left ..)
    _ < minSeconds := tight

variable {middle instant : ℚ}

theorem centred_le_iff : centred bounds middle ≤ instant ↔
    bounds.1 ≤ instant ∧
      (middle - minSeconds / 2 ≤ instant ∨ bounds.2 - minSeconds ≤ instant) := by
  rw [centred, max_le_iff, min_le_iff]

theorem le_centred_iff : instant ≤ centred bounds middle + minSeconds ↔
    instant ≤ bounds.1 + minSeconds ∨
      instant ≤ middle + minSeconds / 2 ∧ instant ≤ bounds.2 := by
  rw [centred, ← sub_le_iff_le_add, le_max_iff, le_min_iff, sub_le_iff_le_add, sub_le_sub_iff_right]
  have half : middle - minSeconds / 2 + minSeconds = middle + minSeconds / 2 := by ring
  rw [sub_le_iff_le_add, half]

structure Shows (bounds cue span window : Span) : Prop where
  least : minSeconds ≤ window.2 - window.1
  most : window.2 - window.1 ≤ maxSeconds
  inside : bounds.1 ≤ window.1 ∧ window.2 ≤ bounds.2
  starts : window.1 ≤ span.1 ↔ bounds.1 ≤ span.1
  stops : span.2 ≤ window.2 ↔ span.2 ≤ bounds.2
  shown : window.1 ≤ cue.1 ∧ cue.2 ≤ window.2 ↔ Shown bounds cue span

theorem padded_starts : (padded bounds span).1 ≤ span.1 ↔ bounds.1 ≤ span.1 := by
  have earlier : span.1 - paddingSeconds ≤ span.1 := by
    rw [paddingSeconds]
    linarith
  exact max_le_iff.trans (and_iff_left earlier)

theorem padded_stops : span.2 ≤ (padded bounds span).2 ↔ span.2 ≤ bounds.2 := by
  have later : span.2 ≤ span.2 + paddingSeconds := by
    rw [paddingSeconds]
    linarith
  exact le_min_iff.trans (and_iff_left later)

theorem shows_padded (near : Near bounds cue span)
    (least : minSeconds ≤ (padded bounds span).2 - (padded bounds span).1)
    (most : (padded bounds span).2 - (padded bounds span).1 ≤ maxSeconds) :
    Shows bounds cue span (padded bounds span) where
  least := least
  most := most
  inside := ⟨le_max_left .., min_le_left ..⟩
  starts := padded_starts
  stops := padded_stops
  shown := by
    rw [Shown, if_pos least]
    exact and_congr (max_le_iff.trans (and_iff_right near.opens))
      (le_min_iff.trans (and_iff_right near.closes))

theorem shows_centred (near : Near bounds cue span)
    (short : (padded bounds span).2 - (padded bounds span).1 < minSeconds)
    (fits : minSeconds ≤ bounds.2 - bounds.1) :
    Shows bounds cue span
      (centred bounds (((padded bounds span).1 + (padded bounds span).2) / 2),
        centred bounds (((padded bounds span).1 + (padded bounds span).2) / 2) + minSeconds) where
  least := by simp
  most := by
    simp only [add_sub_cancel_left, minSeconds, maxSeconds]
    norm_num
  inside := by
    refine ⟨le_max_left .., ?_⟩
    rw [← le_sub_iff_add_le]
    exact max_le (by linarith) (min_le_right ..)
  starts := by
    rw [centred_le_iff]
    refine and_iff_left_of_imp fun within => .inl ?_
    have start := padded_starts.mpr within
    linarith
  stops := by
    rw [le_centred_iff]
    constructor
    · intro either
      obtain low | high := either
      · linarith
      · exact high.2
    · intro within
      have stop := padded_stops.mpr within
      exact .inr ⟨by linarith, within⟩
  shown := by
    rw [Shown, if_neg (not_le.mpr short), centred_le_iff, le_centred_iff, and_iff_right near.opens,
      and_iff_left near.closes, or_comm (a := cue.2 ≤ bounds.1 + minSeconds)]

theorem clipWindow_cases (near : Near bounds cue span) :
    (∃ window, clipWindow span.1 span.2 bounds = some window ∧ Shows bounds cue span window) ∨
      clipWindow span.1 span.2 bounds = none ∧
        (maxSeconds < span.2 - span.1 + 2 * paddingSeconds ∨
          bounds.2 - bounds.1 < minSeconds) := by
  have shape : clipWindow span.1 span.2 bounds =
    if (widened bounds (padded bounds span)).2 - (widened bounds (padded bounds span)).1 < minSeconds ∨
        maxSeconds < (widened bounds (padded bounds span)).2 - (widened bounds (padded bounds span)).1
      then none else some (widened bounds (padded bounds span)) := rfl
  obtain long | short := le_or_gt minSeconds ((padded bounds span).2 - (padded bounds span).1)
  · rw [widened_long long] at shape
    obtain most | over_ := le_or_gt ((padded bounds span).2 - (padded bounds span).1) maxSeconds
    · exact .inl ⟨_, shape.trans (if_neg (by push Not; exact ⟨long, most⟩)),
        shows_padded near long most⟩
    · refine .inr ⟨shape.trans (if_pos (.inr over_)), .inl (over_.trans_le ?_)⟩
      calc
        _ ≤ span.2 + paddingSeconds - (span.1 - paddingSeconds) :=
            sub_le_sub (min_le_right ..) (le_max_right ..)
        _ = span.2 - span.1 + 2 * paddingSeconds := by ring
  · obtain fits | tight := le_or_gt minSeconds (bounds.2 - bounds.1)
    · have shows := shows_centred near short fits
      rw [widened_short short fits] at shape
      exact .inl ⟨_, shape.trans (if_neg (by push Not; exact ⟨shows.least, shows.most⟩)), shows⟩
    · exact .inr ⟨shape.trans (if_pos (.inl (widened_tight short tight))), .inr tight⟩

end

/-! ## The timing of a quote -/

variable {rows : List Row} {words : List Word} {quote : String} {bounds cue span : Span}

theorem transcriptBounds_first (known : transcriptBounds rows = some bounds) :
    (∃ row ∈ rows, row.start = bounds.1) ∧ ∀ row ∈ rows, bounds.1 ≤ row.start := by
  unfold transcriptBounds at known
  split at known
  · next least _ =>
      cases known
      have spec := List.min?_eq_some_iff.mp least
      exact ⟨List.mem_map.mp spec.1, fun row member => spec.2 _ (List.mem_map_of_mem member)⟩
  · cases known

theorem transcriptBounds_last (known : transcriptBounds rows = some bounds) :
    (∃ row ∈ rows, row.stop = bounds.2) ∧ ∀ row ∈ rows, row.stop ≤ bounds.2 := by
  unfold transcriptBounds at known
  split at known
  · next _ greatest =>
      cases known
      have spec := List.max?_eq_some_iff.mp greatest
      exact ⟨List.mem_map.mp spec.1, fun row member => spec.2 _ (List.mem_map_of_mem member)⟩
  · cases known

theorem exists_transcriptBounds (found : transcriptRegion quote rows = some cue) :
    ∃ bounds, transcriptBounds rows = some bounds := by
  obtain ⟨_, first, _, _, held, _⟩ := region_of_transcriptRegion found
  have nonempty := List.ne_nil_of_mem held.mem
  obtain ⟨least, least_eq⟩ := Option.isSome_iff_exists.mp
    (List.isSome_min?_of_mem (List.mem_map_of_mem (f := Row.start) held.mem))
  obtain ⟨greatest, greatest_eq⟩ := Option.isSome_iff_exists.mp
    (List.isSome_max?_of_mem (List.mem_map_of_mem (f := Row.stop) held.mem))
  exact ⟨_, by rw [transcriptBounds, least_eq, greatest_eq]⟩

theorem wordRegion_near (found : wordRegion quote words (some cue) = some span) :
    span.1 < span.2 ∧ cue.1 - 1 ≤ span.1 ∧ span.1 ≤ cue.2 + 1 := by
  unfold wordRegion at found
  dsimp only at found
  split at found
  · cases found
  split at found
  swap
  · cases found
  next hit alone =>
  have near := (List.mem_filter.mp (alone ▸ List.mem_singleton_self hit)).2
  split at found
  swap
  · cases found
  next first last first_eq last_eq =>
  rw [first_eq] at near
  split at found
  · next runs =>
      cases found
      simp only [Option.all_some, Option.any_some, Bool.and_eq_true, decide_eq_true_eq] at near
      exact ⟨runs, near⟩
  · cases found

theorem near_of_region (found : transcriptRegion quote rows = some cue)
    (known : transcriptBounds rows = some bounds) (runs : span.1 < span.2)
    (after : cue.1 - 1 ≤ span.1) (before : span.1 ≤ cue.2 + 1) : Near bounds cue span := by
  obtain ⟨_, first, last, _, opens, closes, rfl⟩ := region_of_transcriptRegion found
  exact {
    opens := (transcriptBounds_first known).2 first opens.mem
    closes := (transcriptBounds_last known).2 last closes.mem
    lasts := transcriptRegion_lt found
    runs := runs
    after := after
    before := before }

variable {source : TimingSource}

theorem quoteTiming_near (known : transcriptBounds rows = some bounds)
    (timed : quoteTiming quote rows words = some (span, source)) :
    ∃ cue, transcriptRegion quote rows = some cue ∧ Near bounds cue span ∧
      (wordRegion quote words (some cue) = some span ∨
        wordRegion quote words (some cue) = none ∧ span = cue) := by
  unfold quoteTiming at timed
  split at timed
  · cases timed
  next cue found =>
  have lasts := transcriptRegion_lt found
  dsimp only at timed
  by_cases silent : words = []
  · rw [if_pos silent] at timed
    cases timed
    exact ⟨_, found, near_of_region found known lasts (by linarith) (by linarith),
      .inr ⟨silent ▸ wordRegion_nil quote _, rfl⟩⟩
  · rw [if_neg silent] at timed
    split at timed
    · next exact_ =>
        cases timed
        obtain ⟨runs, after, before⟩ := wordRegion_near exact_
        exact ⟨_, found, near_of_region found known runs after before, .inl exact_⟩
    · next unresolved =>
        cases timed
        exact ⟨_, found, near_of_region found known lasts (by linarith) (by linarith),
          .inr ⟨unresolved, rfl⟩⟩

theorem exists_quoteTiming (found : transcriptRegion quote rows = some cue) (words : List Word) :
    ∃ span source, quoteTiming quote rows words = some (span, source) := by
  rw [quoteTiming, found]
  dsimp only
  split
  · exact ⟨_, _, rfl⟩
  · exact ⟨_, _, rfl⟩

theorem framed_cue (near : Near bounds cue cue) : Framed bounds cue cue where
  starts := near.opens
  stops := near.closes
  shown := by
    have starts := padded_starts.mpr near.opens
    have stops := padded_stops.mpr near.closes
    unfold Shown
    split
    · rw [paddingSeconds]
      constructor <;> linarith
    · next short =>
        rw [not_le] at short
        exact ⟨.inl (by linarith), .inl (by linarith)⟩

/-! ## Grounded quotes -/

/-- What a normalised candidate promises of its clip. -/
structure KeepsQuote (rows : List Row) (value : QuoteCandidate) : Prop where
  grounded : ∃ cue, Region (norm value.quote) rows cue ∧ transcriptRegion value.quote rows = some cue
  least : minSeconds ≤ value.stop - value.start
  most : value.stop - value.start ≤ maxSeconds
  opens : value.start ≤ value.quoteStart
  runs : value.quoteStart < value.quoteEnd
  closes : value.quoteEnd ≤ value.stop
  first : ∃ row ∈ rows, row.start ≤ value.start
  last : ∃ row ∈ rows, value.stop ≤ row.stop
  safe : quoteSafetyGate value rows = true

variable {extraction : Extraction} {candidate : RawCandidate} {value : QuoteCandidate}

theorem normalize_eq (extraction : Extraction)
    (timed : quoteTiming candidate.quoteText rows words = some (span, source))
    (known : transcriptBounds rows = some bounds) :
    normalizeQuoteCandidate extraction rows words candidate =
      (clipWindow span.1 span.2 bounds).map (quoteCandidate extraction candidate span source) := by
  unfold normalizeQuoteCandidate
  rw [timed, known]

theorem normalize_eq_some
    (returned : normalizeQuoteCandidate extraction rows words candidate = some value) :
    ∃ span source bounds window, quoteTiming candidate.quoteText rows words = some (span, source) ∧
      transcriptBounds rows = some bounds ∧ clipWindow span.1 span.2 bounds = some window ∧
      value = quoteCandidate extraction candidate span source window := by
  unfold normalizeQuoteCandidate at returned
  split at returned
  · next span source bounds timed known =>
      obtain ⟨window, windowed, made⟩ := Option.map_eq_some_iff.mp returned
      exact ⟨span, source, bounds, window, timed, known, windowed, made.symm⟩
  · cases returned

theorem quoteSafetyGate_iff (value : QuoteCandidate)
    (found : transcriptRegion value.quote rows = some cue)
    (least : minSeconds ≤ value.stop - value.start) (most : value.stop - value.start ≤ maxSeconds) :
    quoteSafetyGate value rows = true ↔ value.start ≤ cue.1 ∧ cue.2 ≤ value.stop := by
  simp [quoteSafetyGate, found, least, most]

theorem keepsQuote_iff_framed {window : Span}
    (found : transcriptRegion candidate.quoteText rows = some cue)
    (known : transcriptBounds rows = some bounds) (near : Near bounds cue span)
    (shows : Shows bounds cue span window) :
    KeepsQuote rows (quoteCandidate extraction candidate span source window) ↔
      Framed bounds cue span := by
  have gate : quoteSafetyGate (quoteCandidate extraction candidate span source window) rows = true ↔
      Shown bounds cue span :=
    (quoteSafetyGate_iff (quoteCandidate extraction candidate span source window) found shows.least
      shows.most).trans shows.shown
  constructor
  · intro keeps
    exact {
      starts := shows.starts.mp keeps.opens
      stops := shows.stops.mp keeps.closes
      shown := gate.mp keeps.safe }
  · intro framed
    obtain ⟨first, member, earliest⟩ := (transcriptBounds_first known).1
    obtain ⟨last, member', latest⟩ := (transcriptBounds_last known).1
    exact {
      grounded := ⟨cue, region_of_transcriptRegion found, found⟩
      least := shows.least
      most := shows.most
      opens := shows.starts.mpr framed.starts
      runs := near.runs
      closes := shows.stops.mpr framed.stops
      first := ⟨first, member, earliest.trans_le shows.inside.1⟩
      last := ⟨last, member', shows.inside.2.trans_eq latest.symm⟩
      safe := gate.mpr framed.shown }

/-- A returned candidate keeps its quote in its clip if and only if the words, where they time
the quote, are framed; a grounded candidate is dropped only for its length or the
transcript's. -/
theorem quote_in_clip_iff (extraction : Extraction) (rows : List Row) (words : List Word)
    (candidate : RawCandidate) :
    (∀ value, normalizeQuoteCandidate extraction rows words candidate = some value →
      (KeepsQuote rows value ↔ ∀ cue bounds span,
        transcriptRegion candidate.quoteText rows = some cue → transcriptBounds rows = some bounds →
          wordRegion candidate.quoteText words (some cue) = some span → Framed bounds cue span)) ∧
      ∀ cue, transcriptRegion candidate.quoteText rows = some cue →
        normalizeQuoteCandidate extraction rows words candidate = none →
          ∃ span source bounds, quoteTiming candidate.quoteText rows words = some (span, source) ∧
            transcriptBounds rows = some bounds ∧
            (maxSeconds < span.2 - span.1 + 2 * paddingSeconds ∨
              bounds.2 - bounds.1 < minSeconds) := by
  constructor
  · intro value returned
    obtain ⟨span, source, bounds, window, timed, known, windowed, rfl⟩ := normalize_eq_some returned
    obtain ⟨cue, found, near, chosen⟩ := quoteTiming_near known timed
    obtain ⟨window', windowed', shows⟩ | ⟨dropped, -⟩ := clipWindow_cases near
    swap
    · rw [windowed] at dropped
      cases dropped
    cases windowed.symm.trans windowed'
    rw [keepsQuote_iff_framed found known near shows]
    constructor
    · intro framed cue' bounds' span' found' known' exact_
      cases found.symm.trans found'
      cases known.symm.trans known'
      obtain words | ⟨unresolved, -⟩ := chosen
      · cases words.symm.trans exact_
        exact framed
      · exact absurd (unresolved.symm.trans exact_) (Option.some_ne_none span').symm
    · intro framed
      obtain words | ⟨-, rfl⟩ := chosen
      · exact framed cue bounds span found known words
      · exact framed_cue near
  · intro cue found dropped
    obtain ⟨bounds, known⟩ := exists_transcriptBounds found
    obtain ⟨span, source, timed⟩ := exists_quoteTiming found words
    obtain ⟨_, -, near, -⟩ := quoteTiming_near known timed
    refine ⟨span, source, bounds, timed, known, ?_⟩
    rw [normalize_eq extraction timed known, Option.map_eq_none_iff] at dropped
    obtain ⟨window, windowed, -⟩ | ⟨-, reason⟩ := clipWindow_cases near
    · exact absurd (windowed.symm.trans dropped) (Option.some_ne_none window)
    · exact reason

def bakeryRows : List Row :=
  [⟨"Thank you. Parking minimums blocked my bakery expansion.", 100, 115⟩,
    ⟨"We need a vote tonight.", 115, 130⟩]

def bakeryWords : List Word :=
  [("Thank", 1000), ("you.", 1005), ("Parking", 1060), ("minimums", 1065), ("blocked", 1070),
    ("my", 1075), ("bakery", 1080), ("expansion.", 1085), ("We", 1150), ("need", 1155), ("a", 1160),
    ("vote", 1165), ("tonight.", 1170)].map fun word : String × ℚ =>
      ⟨word.1, word.2 / 10, (word.2 + 4) / 10⟩

def bakeryQuote : RawCandidate := { quote := some "Parking minimums blocked my bakery expansion." }

/-- Without words the clip is framed by the rows. -/
theorem quote_in_clip_rows : ∃ value,
    normalizeQuoteCandidate ⟨"ep", "m", "r", "council"⟩ bakeryRows [] bakeryQuote = some value ∧
      KeepsQuote bakeryRows value := by
  have timed : quoteTiming bakeryQuote.quoteText bakeryRows [] = some ((100, 115), .cues) := by
    decide +kernel
  have known : transcriptBounds bakeryRows = some (100, 130) := by decide +kernel
  have windowed : clipWindow 100 115 (100, 130) = some (100, 233 / 2) := by decide +kernel
  have returned := normalize_eq ⟨"ep", "m", "r", "council"⟩ timed known
  rw [windowed, Option.map_some] at returned
  refine ⟨_, returned, ((quote_in_clip_iff _ _ _ _).1 _ returned).mpr ?_⟩
  intro cue bounds span _ _ exact_
  rw [wordRegion_nil] at exact_
  cases exact_

/-- The row is longer than the clip about its words, so the safety gate fails. -/
theorem quote_leaves_clip : ¬ ∀ (extraction : Extraction) (rows : List Row) (words : List Word)
    (candidate : RawCandidate) (value : QuoteCandidate), Timed rows →
      normalizeQuoteCandidate extraction rows words candidate = some value →
        KeepsQuote rows value := by
  intro claimed
  have timed : quoteTiming bakeryQuote.quoteText bakeryRows bakeryWords =
      some ((106, 1089 / 10), .words) := by decide +kernel
  have known : transcriptBounds bakeryRows = some (100, 130) := by decide +kernel
  have windowed : clipWindow 106 (1089 / 10) (100, 130) = some (2069 / 20, 2229 / 20) := by
    decide +kernel
  have found : transcriptRegion bakeryQuote.quoteText bakeryRows = some (100, 115) := by
    decide +kernel
  have rows : Timed bakeryRows := {
    lasts := by decide +kernel
    starts := by decide +kernel
    stops := by decide +kernel }
  have returned := normalize_eq ⟨"ep", "m", "r", "council"⟩ timed known
  rw [windowed, Option.map_some] at returned
  have keeps := claimed _ _ _ _ _ rows returned
  have covers := ((quoteSafetyGate_iff (quoteCandidate _ bakeryQuote _ _ _) found keeps.least
    keeps.most).mp keeps.safe).1
  exact absurd covers (by decide +kernel)

end CityPods.Moments
