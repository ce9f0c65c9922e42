import Mathlib.Data.String.Basic
import CityPods.Audio.Timeline
import CityPods.Foundation.PyVal
import CityPods.Foundation.Texts

/-! # The tag fingerprint

What the tagger reads of an episode, and the cheap fingerprint that stands for
it: the keys of stored artifacts in place of their bytes, and the served
chapters.
-/

namespace CityPods.Tagging

open Foundation
open Foundation.Whitespace (isBlank strip)

/-! ## Canonical values -/

mutual

/-- A value as the JSON writer with sorted keys sees it. -/
def canonical : PyVal → PyVal
  | .none => .none
  | .bool value => .bool value
  | .num value => .num value
  | .str value => .str value
  | .list elements => .list (canonicalAll elements)
  | .tuple elements => .list (canonicalAll elements)
  | .dict entries => .dict (Dict.sortKeys (canonicalEntries entries))

def canonicalAll : List PyVal → List PyVal
  | [] => []
  | element :: rest => canonical element :: canonicalAll rest

def canonicalEntries : List (String × PyVal) → Dict String PyVal
  | [] => []
  | (key, value) :: rest => (key, canonical value) :: canonicalEntries rest

end

theorem canonicalAll_eq_map (elements : List PyVal) :
    canonicalAll elements = elements.map canonical := by
  induction elements with
  | nil => rfl
  | cons element rest induction => rw [canonicalAll, List.map_cons, induction]

theorem get?_canonicalEntries (entries : Dict String PyVal) (key : String) :
    (canonicalEntries entries).get? key = (entries.get? key).map canonical := by
  induction entries with
  | nil => rfl
  | cons entry rest induction =>
      obtain ⟨head, value⟩ := entry
      rw [canonicalEntries, Dict.get?_cons, Dict.get?_cons, induction]
      split <;> rfl

/-- Mappings that are written alike hold values that are written alike. -/
theorem get?_congr {first second : Dict String PyVal}
    (alike : canonical (.dict first) = canonical (.dict second)) (key : String) :
    (first.get? key).map canonical = (second.get? key).map canonical := by
  simp only [canonical, PyVal.dict.injEq] at alike
  rw [← get?_canonicalEntries, ← get?_canonicalEntries, ← Dict.get?_sortKeys, alike,
    Dict.get?_sortKeys]

/-! ## Episodes -/

abbrev Chapter := Dict String PyVal

structure SourceMedia where
  id : String
  duration : Option ℚ

/-- Digests stay abstract. -/
structure Episode (D : Type) where
  sourceChapters : List Chapter := []
  chapters : List Chapter := []
  timeline : Option Audio.Timeline := none
  sources : List SourceMedia := []
  links : Dict String String := []
  agendaTextQuality : Dict String PyVal := []
  transcriptKey : Option String := none
  transcriptFormat : Option String := none
  tagsInputFingerprint : Option D := none
  tagsSpecHash : Option String := none
  tagsLlmRecipeHash : Option String := none
  chapterTags : List String := []

inductive Fault
  | keyError
  | typeError
  deriving DecidableEq

/-! ## Served chapters -/

def number : PyVal → Except Fault ℚ
  | .num value => .ok value
  | .bool value => .ok (if value then 1 else 0)
  | _ => .error .typeError

def isIdentity (timeline : Audio.Timeline) (sources : List SourceMedia) : Bool :=
  match timeline.segments with
  | [segment] =>
      match segment.kind with
      | .insert .. => false
      | .source sourceId sourceStart sourceEnd =>
          decide (segment.servedStart = 0 ∧ sourceStart = 0 ∧
            sourceEnd = some segment.servedEnd) &&
          (sources.isEmpty ||
            (sources.find? fun source => source.id = sourceId).any fun source =>
              source.duration.all fun duration => decide (sourceEnd = some duration))
  | _ => false

def sourceIds (timeline : Audio.Timeline) : List String :=
  (timeline.segments.filterMap fun segment =>
    match segment.kind with
    | .source sourceId _ _ => some sourceId
    | .insert .. => none).dedup

def timeOf (served : Except Audio.Error (Option ℚ)) : Except Fault (Option ℚ) :=
  served.mapError fun _ => .typeError

/-- A chapter in served time; `none` where its start is cut and nothing is kept after it. -/
def remapChapter (timeline : Audio.Timeline) (sourceId : String) (item : Chapter) :
    Except Fault (Option Chapter) :=
  match item.get? "start" with
  | none => .error .keyError
  | some found => do
      let instant ← number found
      match ← timeOf (Audio.remapStart timeline (some sourceId) true instant) with
      | none => return none
      | some start =>
          let moved := Dict.set item "start" (.num start)
          match item.get? "end" with
          | none => return some moved
          | some .none => return some moved
          | some ending => do
              let stop ← timeOf
                (Audio.remapStop timeline (some sourceId) none (some (← number ending)))
              return some (Dict.set moved "end" (stop.elim .none .num))

def remapChapters (timeline : Audio.Timeline) (sourceId : String) :
    List Chapter → Except Fault (List Chapter)
  | [] => .ok []
  | item :: rest => do
      let moved ← remapChapter timeline sourceId item
      return moved.toList ++ (← remapChapters timeline sourceId rest)

def stamped (chapters : List Chapter) : List Chapter :=
  chapters.mapIdx fun index chapter => Dict.set chapter "source_index" (.num index)

def episodeServedChapters {D : Type} (ep : Episode D) (withSourceIndex : Bool) : Except Fault (List Chapter) :=
  if ep.sourceChapters = [] then .ok ep.chapters
  else
    match ep.timeline with
    | none => .ok ep.sourceChapters
    | some timeline =>
        if isIdentity timeline ep.sources then .ok ep.sourceChapters
        else
          match sourceIds timeline with
          | [sourceId] =>
              remapChapters timeline sourceId
                (if withSourceIndex then stamped ep.sourceChapters else ep.sourceChapters)
          | _ => .ok ep.chapters

/-! ## The fingerprint -/

structure Settings where
  taxonomy : String
  tagger : String
  chapterPipelineVersion : String
  llmEnabled : Bool
  llmRoute : String
  promptVersion : String
  llmSchemaVersion : String
  admissionPolicy : String

/-- What both hashes say of the pipeline; without a model its settings do not count. -/
def Settings.entries (settings : Settings) : Dict String PyVal :=
  let whenEnabled := fun value => PyVal.str (if settings.llmEnabled then value else "")
  [("taxonomy", .str settings.taxonomy), ("tagger", .str settings.tagger),
    ("chapter_pipeline_version", .str settings.chapterPipelineVersion),
    ("llm", .bool settings.llmEnabled), ("llm_route", whenEnabled settings.llmRoute),
    ("prompt_version", whenEnabled settings.promptVersion),
    ("llm_schema_version", whenEnabled settings.llmSchemaVersion),
    ("admission_policy", whenEnabled settings.admissionPolicy)]

def optional (text : Option String) : PyVal := text.elim .none .str

/-- `dict.get` -/
def getOrNone (entries : Dict String PyVal) (key : String) : PyVal := (entries.get? key).getD .none

structure TimedSegment where
  start : ℚ
  stop : Option ℚ
  text : String

/-- How values are spelled and read: `str` of a value, `float` of a text, the decoders of an
artifact's bytes, and the digests of canonical values. -/
structure Readers (D : Type) where
  display : PyVal → String
  parseFloat : String → Option ℚ
  decode : List UInt8 → String
  loads : List UInt8 → Option PyVal
  textFromTranscript : List UInt8 → Option String → String
  timedTranscriptSegments : List UInt8 → Option String → List TimedSegment
  stripPreamble : String → List String → String
  digest : PyVal → D
  chapterDigest : PyVal → String

section

variable {D : Type} (readers : Readers D)

/-- `str(value or "")` -/
def Readers.text (value : PyVal) : String :=
  if value.truthy then
    match value with
    | .str text => text
    | other => readers.display other
  else ""

def titleOf (chapter : Chapter) : String := readers.text (getOrNone chapter "title")

/-- `isinstance(value, int)` -/
def asInt? : PyVal → Option Int
  | .num value => if value.den = 1 then some value.num else none
  | .bool value => some (if value then 1 else 0)
  | _ => none

/-- The source position of a chapter, or its served one. -/
def lookupIndex (chapter : Chapter) (index : Nat) : Int :=
  (asInt? (getOrNone chapter "source_index")).getD index

def chapterId (ep : Episode D) (chapter : Chapter) (index : Nat) : String :=
  let position := lookupIndex chapter index
  let source :=
    if 0 ≤ position then (ep.sourceChapters[position.toNat]?).getD chapter else chapter
  "ch-" ++ readers.chapterDigest (canonical (.dict
    [("index", .num position), ("start", getOrNone source "start"),
      ("title", .str (strip (titleOf readers source)))]))

def chapterFingerprint (ep : Episode D) (chapter : Chapter) (index : Nat) : PyVal :=
  .dict [("chapter_id", .str (chapterId readers ep chapter index)),
    ("title", .str (titleOf readers chapter)), ("start", getOrNone chapter "start"),
    ("source_index", getOrNone chapter "source_index")]

def fingerprintPayload (ep : Episode D) (settings : Settings) (served : List Chapter) : PyVal :=
  .dict (settings.entries ++
    [("agenda_text_artifact_key", optional (ep.links.get? "agenda_text_artifact_key")),
      ("agenda_backup_artifact_key", optional (ep.links.get? "agenda_backup_artifact_key")),
      ("agenda_quality", .dict
        [("status", getOrNone ep.agendaTextQuality "status"),
          ("eligibility", getOrNone ep.agendaTextQuality "eligibility"),
          ("pipeline_version", getOrNone ep.agendaTextQuality "pipeline_version")]),
      ("transcript_key", optional ep.transcriptKey),
      ("transcript_format", optional ep.transcriptFormat),
      ("chapters", .list (served.mapIdx fun index chapter =>
        chapterFingerprint readers ep chapter index))])

def tagInputFingerprint (ep : Episode D) (settings : Settings) : Except Fault D := do
  let served ← episodeServedChapters ep true
  return readers.digest (canonical (fingerprintPayload readers ep settings served))

/-! ## What the tagger reads -/

variable (storage : String → Option (List UInt8))

/-- The bytes of an artifact, if there are any. -/
def readStorageBytes (key : Option String) : Option (List UInt8) :=
  (key.filter fun key => decide (key ≠ "")).bind storage |>.filter fun data => decide (data ≠ [])

def agendaChapterEligible (quality : Dict String PyVal) : Bool :=
  decide (getOrNone quality "status" = .str "accepted" ∧
    getOrNone quality "eligibility" = .str "agenda")

def manifestItems (payload : PyVal) : List (Dict String PyVal) :=
  match payload with
  | .dict entries =>
      (((getOrNone entries "items").orElse (getOrNone entries "links")).asList?.getD []).filterMap
        PyVal.asDict?
  | _ => []

def itemText (item : Dict String PyVal) : Option String :=
  ((getOrNone item "item_text").orElse (getOrNone item "text")).asStr?.filter fun text =>
    !isBlank text

def clipped (text : String) : String := String.ofList (text.toList.take 20000)

def backupItems (ep : Episode D) : List (Dict String PyVal) :=
  ((readStorageBytes storage (ep.links.get? "agenda_backup_artifact_key")).bind
    readers.loads).elim [] manifestItems

def agendaItemContext (ep : Episode D) : Dict Int String :=
  if agendaChapterEligible ep.agendaTextQuality then
    (backupItems readers storage ep).foldl (fun result item =>
      match asInt? (getOrNone item "chapter_index"), itemText item with
      | some index, some text => Dict.set result index (clipped text)
      | _, _ => result) []
  else []

def episodeBackupText (ep : Episode D) : String :=
  "\n\n".intercalate ((backupItems readers storage ep).filterMap fun item =>
    (itemText item).map fun text => clipped (strip text))

/-- `float(value)` -/
def Readers.float : PyVal → Option ℚ
  | .num value => some value
  | .bool value => some (if value then 1 else 0)
  | .str text => readers.parseFloat text
  | _ => none

/-- The chapter's start; none and anything that is no number count as the beginning. -/
def chapterStart (chapter : Chapter) : ℚ :=
  ((readers.float ((chapter.get? "start").getD (.num 0))).map (max 0)).getD 0

/-- Where the next chapter starts, for one that starts at `start`. -/
def nextStart (start : ℚ) (next : Chapter) : Option ℚ :=
  (readers.float ((next.get? "start").getD (.num start))).map (max start)

structure ChapterInput where
  chapterId : String
  title : String
  start : ℚ
  stop : Option ℚ
  agendaText : String
  transcriptText : String
  transcriptSegments : List TimedSegment

def transcriptSegments (ep : Episode D) : List TimedSegment :=
  ((readStorageBytes storage ep.transcriptKey).elim [] fun data =>
    readers.timedTranscriptSegments data ep.transcriptFormat).mergeSort fun first second =>
      first.start ≤ second.start

def chapterInput (ep : Episode D) (served : List Chapter) (index : Nat) (chapter : Chapter) :
    ChapterInput :=
  let start := chapterStart readers chapter
  let next := (served[index + 1]?).bind (nextStart readers start)
  let spoken := (transcriptSegments readers storage ep).filter fun segment =>
    decide (start ≤ segment.start) && next.all fun next => decide (segment.start < next)
  { chapterId := chapterId readers ep chapter index
    title := titleOf readers chapter
    start := start
    stop := next
    agendaText := ((agendaItemContext readers storage ep).get? (lookupIndex chapter index)).getD ""
    transcriptText := "\n".intercalate (spoken.map TimedSegment.text)
    transcriptSegments := spoken }

def chapterTagInputs (ep : Episode D) : Except Fault (List ChapterInput) := do
  let served ← episodeServedChapters ep true
  return served.mapIdx (chapterInput readers storage ep served)

structure EpisodeInputs where
  titles : String
  agendaText : String
  transcript : String

def agendaText (ep : Episode D) (titles : List String) : String :=
  let text := ((readStorageBytes storage (ep.links.get? "agenda_text_artifact_key")).map
    readers.decode).getD ""
  let eligible := agendaChapterEligible ep.agendaTextQuality
  let agenda := if text ≠ "" ∧ eligible then readers.stripPreamble text titles else ""
  let backup := if eligible then episodeBackupText readers storage ep else ""
  if backup ≠ "" then agenda ++ "\n\n--- backup/attachment documents ---\n\n" ++ backup else agenda

def chapterTitles (served : List Chapter) : List String :=
  (served.filter fun chapter => (getOrNone chapter "title").truthy).map (titleOf readers)

def episodeTagInputs (ep : Episode D) : Except Fault EpisodeInputs := do
  let served ← episodeServedChapters ep false
  let titles := chapterTitles readers served
  return {
    titles := "\n".intercalate titles
    agendaText := agendaText readers storage ep titles
    transcript := (readStorageBytes storage ep.transcriptKey).elim "" fun data =>
      readers.textFromTranscript data ep.transcriptFormat }

/-! ## The recipe -/

def TimedSegment.value (segment : TimedSegment) : PyVal :=
  .dict [("start", .num segment.start), ("end", segment.stop.elim .none .num),
    ("text", .str segment.text)]

def ChapterInput.value (input : ChapterInput) : PyVal :=
  .dict [("chapter_id", .str input.chapterId), ("title", .str input.title),
    ("start", .num input.start), ("end", input.stop.elim .none .num),
    ("agenda_text", .str input.agendaText), ("transcript_text", .str input.transcriptText),
    ("transcript_segments", .list (input.transcriptSegments.map TimedSegment.value))]

def recipePayload (settings : Settings) (inputs : EpisodeInputs) (chapters : List ChapterInput) :
    PyVal :=
  .dict (settings.entries ++
    [("agenda_item_titles", .str inputs.titles), ("agenda_text", .str inputs.agendaText),
      ("transcript", .str inputs.transcript),
      ("chapters", .list (chapters.map ChapterInput.value))])

/-- `tag_recipe_hash` over the inputs of the episode. -/
def tagRecipeHash (ep : Episode D) (settings : Settings) : Except Fault D := do
  let inputs ← episodeTagInputs readers storage ep
  let chapters ← chapterTagInputs readers storage ep
  return readers.digest (canonical (recipePayload settings inputs chapters))

def episodeNeedsTagging [DecidableEq D] (ep : Episode D) (settings : Settings) : Except Fault Bool := do
  let hasChapters := (← episodeServedChapters ep false) ≠ []
  let cheapFingerprint ← tagInputFingerprint readers ep settings
  let inputsUnchanged := ep.tagsInputFingerprint = some cheapFingerprint ∧
    ep.tagsSpecHash.isSome ∧ (¬hasChapters ∨ ep.chapterTags ≠ [])
  let llmPending := settings.llmEnabled ∧ ep.tagsLlmRecipeHash = none
  return decide ¬(inputsUnchanged ∧ ¬llmPending)

/-! ## Served chapters without their positions -/

/-- Chapters that differ at most in their source position. -/
def Alike (first second : Chapter) : Prop :=
  ∀ key, key ≠ "source_index" → first.get? key = second.get? key

variable {first second : Chapter}

theorem Alike.set (alike : Alike first second) (key : String)
    (value : PyVal) : Alike (Dict.set first key value) (Dict.set second key value) := by
  intro other different
  rw [Dict.get?_set, Dict.get?_set, alike other different]

theorem alike_stamped (chapter : Chapter) (value : PyVal) :
    Alike (Dict.set chapter "source_index" value) chapter := fun _ different =>
  Dict.get?_set_other _ _ different

/-- Both raise the same, or both yield related results. -/
inductive Together {α β : Type} (related : α → β → Prop) : Except Fault α → Except Fault β → Prop
  | error (fault : Fault) : Together related (.error fault) (.error fault)
  | ok {first : α} {second : β} (held : related first second) :
      Together related (.ok first) (.ok second)

variable {α : Type}

theorem Together.bind {α' β β' : Type} {related : α → α' → Prop} {related' : β → β' → Prop}
    {first : Except Fault α} {second : Except Fault α'} {next : α → Except Fault β}
    {next' : α' → Except Fault β'} (held : Together related first second)
    (step : ∀ one other, related one other → Together related' (next one) (next' other)) :
    Together related' (first >>= next) (second >>= next') := by
  cases held with
  | error fault => exact .error fault
  | ok held => exact step _ _ held

theorem Together.refl (result : Except Fault α) : Together Eq result result := by
  cases result with
  | error fault => exact .error fault
  | ok value => exact .ok rfl

theorem remapChapter_alike (timeline : Audio.Timeline) (sourceId : String)
    (alike : Alike first second) :
    Together (Option.Rel Alike) (remapChapter timeline sourceId first)
      (remapChapter timeline sourceId second) := by
  unfold remapChapter
  rw [alike "start" (by decide), alike "end" (by decide)]
  cases second.get? "start" with
  | none => exact .error _
  | some found =>
      refine (Together.refl _).bind fun instant _ same => same ▸ ?_
      refine (Together.refl _).bind fun served _ same => same ▸ ?_
      cases served with
      | none => exact .ok .none
      | some start =>
          have moved := alike.set "start" (.num start)
          cases second.get? "end" with
          | none => exact .ok (.some moved)
          | some ending =>
              have ended : Together (Option.Rel Alike)
                  (do
                    let stop ← timeOf
                      (Audio.remapStop timeline (some sourceId) none (some (← number ending)))
                    return some (Dict.set (Dict.set first "start" (.num start)) "end"
                      (stop.elim .none .num)))
                  (do
                    let stop ← timeOf
                      (Audio.remapStop timeline (some sourceId) none (some (← number ending)))
                    return some (Dict.set (Dict.set second "start" (.num start)) "end"
                      (stop.elim .none .num))) := by
                refine (Together.refl _).bind fun instant _ same => same ▸ ?_
                refine (Together.refl _).bind fun stop _ same => same ▸ ?_
                exact .ok (.some (moved.set _ _))
              cases ending with
              | none => exact .ok (.some moved)
              | _ => exact ended

theorem remapChapters_alike (timeline : Audio.Timeline) (sourceId : String)
    {firsts seconds : List Chapter} (alike : List.Forall₂ Alike firsts seconds) :
    Together (List.Forall₂ Alike) (remapChapters timeline sourceId firsts)
      (remapChapters timeline sourceId seconds) := by
  induction alike with
  | nil => exact .ok .nil
  | cons head _ induction =>
      refine (remapChapter_alike timeline sourceId head).bind fun moved moved' here => ?_
      refine induction.bind fun rest rest' later => ?_
      cases here with
      | none => exact .ok later
      | some held => exact .ok (.cons held later)

theorem stamped_alike (chapters : List Chapter) :
    List.Forall₂ Alike (stamped chapters) chapters := by
  rw [List.forall₂_iff_get]
  refine ⟨by simp [stamped], fun index _ _ => ?_⟩
  simp only [stamped, List.get_eq_getElem, List.getElem_mapIdx]
  exact alike_stamped _ _

theorem forall₂_alike_refl (chapters : List Chapter) : List.Forall₂ Alike chapters chapters :=
  List.forall₂_same.mpr fun _ _ _ _ => rfl

/-- The source positions change nothing else of the served chapters. -/
theorem episodeServedChapters_alike (ep : Episode D) :
    Together (List.Forall₂ Alike) (episodeServedChapters ep true)
      (episodeServedChapters ep false) := by
  unfold episodeServedChapters
  split
  · exact .ok (forall₂_alike_refl _)
  · cases ep.timeline with
    | none => exact .ok (forall₂_alike_refl _)
    | some timeline =>
        dsimp only
        split
        · exact .ok (forall₂_alike_refl _)
        · cases sourceIds timeline with
          | nil => exact .ok (forall₂_alike_refl _)
          | cons sourceId others =>
              cases others with
              | nil => exact remapChapters_alike timeline sourceId (stamped_alike _)
              | cons _ _ => exact .ok (forall₂_alike_refl _)

/-! ## What equal fingerprints agree on -/

variable {value value' : PyVal}

theorem field_congr {first second : Dict String PyVal}
    (alike : canonical (.dict first) = canonical (.dict second)) (key : String)
    (here : first.get? key = some value)
    (there : second.get? key = some value') : canonical value = canonical value' := by
  have same := get?_congr alike key
  rwa [here, there, Option.map_some, Option.map_some, Option.some.injEq] at same

@[simp] theorem canonical_optional (text : Option String) :
    canonical (optional text) = optional text := by
  cases text <;> rfl

theorem optional_injective : Function.Injective optional := by
  intro first second same
  cases first <;> cases second <;> simp_all [optional]

variable {settings settings' : Settings}

theorem entries_congr {rest rest' : Dict String PyVal}
    (same : canonical (.dict (settings.entries ++ rest)) =
      canonical (.dict (settings'.entries ++ rest'))) : settings.entries = settings'.entries := by
  have taxonomy := field_congr same "taxonomy" rfl rfl
  have tagger := field_congr same "tagger" rfl rfl
  have pipeline := field_congr same "chapter_pipeline_version" rfl rfl
  have llm := field_congr same "llm" rfl rfl
  have route := field_congr same "llm_route" rfl rfl
  have prompt := field_congr same "prompt_version" rfl rfl
  have schema := field_congr same "llm_schema_version" rfl rfl
  have policy := field_congr same "admission_policy" rfl rfl
  simp only [canonical] at taxonomy tagger pipeline llm route prompt schema policy
  simp only [Settings.entries, taxonomy, tagger, pipeline, llm, route, prompt, schema, policy]

/-- What the fingerprint tells of a chapter. -/
structure SameChapter (ep ep' : Episode D) (index : Nat) (chapter chapter' : Chapter) : Prop where
  chapterId : chapterId readers ep chapter index = Tagging.chapterId readers ep' chapter' index
  title : titleOf readers chapter = titleOf readers chapter'
  start : canonical (getOrNone chapter "start") = canonical (getOrNone chapter' "start")
  sourceIndex : canonical (getOrNone chapter "source_index") =
    canonical (getOrNone chapter' "source_index")

/-- What the fingerprint tells of an episode. -/
structure SameEpisode (ep ep' : Episode D) (served served' : List Chapter) : Prop where
  agendaTextKey : ep.links.get? "agenda_text_artifact_key" =
    ep'.links.get? "agenda_text_artifact_key"
  agendaBackupKey : ep.links.get? "agenda_backup_artifact_key" =
    ep'.links.get? "agenda_backup_artifact_key"
  status : canonical (getOrNone ep.agendaTextQuality "status") =
    canonical (getOrNone ep'.agendaTextQuality "status")
  eligibility : canonical (getOrNone ep.agendaTextQuality "eligibility") =
    canonical (getOrNone ep'.agendaTextQuality "eligibility")
  transcriptKey : ep.transcriptKey = ep'.transcriptKey
  transcriptFormat : ep.transcriptFormat = ep'.transcriptFormat
  count : served.length = served'.length
  chapters : ∀ index chapter chapter', served[index]? = some chapter →
    served'[index]? = some chapter' → SameChapter readers ep ep' index chapter chapter'

variable {chapter chapter' : Chapter} {index : Nat}

theorem SameChapter.of_fingerprint {ep ep' : Episode D}
    (same : canonical (chapterFingerprint readers ep chapter index) =
      canonical (chapterFingerprint readers ep' chapter' index)) :
    SameChapter readers ep ep' index chapter chapter' where
  chapterId := PyVal.str.inj (field_congr same "chapter_id" rfl rfl)
  title := PyVal.str.inj (field_congr same "title" rfl rfl)
  start := field_congr same "start" rfl rfl
  sourceIndex := field_congr same "source_index" rfl rfl

theorem SameEpisode.of_fingerprint {ep ep' : Episode D} {served served' : List Chapter}
    (same : canonical (fingerprintPayload readers ep settings served) =
      canonical (fingerprintPayload readers ep' settings' served')) :
    SameEpisode readers ep ep' served served' := by
  have quality := field_congr same "agenda_quality" rfl rfl
  have chapters := field_congr same "chapters" rfl rfl
  simp only [canonical, canonicalAll_eq_map, PyVal.list.injEq] at chapters
  have count : served.length = served'.length := by
    simpa using congrArg List.length chapters
  refine ⟨?_, ?_, ?_, ?_, ?_, ?_, count, ?_⟩
  · have key := field_congr same "agenda_text_artifact_key" rfl rfl
    rw [canonical_optional, canonical_optional] at key
    exact optional_injective key
  · have key := field_congr same "agenda_backup_artifact_key" rfl rfl
    rw [canonical_optional, canonical_optional] at key
    exact optional_injective key
  · exact field_congr quality "status" rfl rfl
  · exact field_congr quality "eligibility" rfl rfl
  · have key := field_congr same "transcript_key" rfl rfl
    rw [canonical_optional, canonical_optional] at key
    exact optional_injective key
  · have format := field_congr same "transcript_format" rfl rfl
    rw [canonical_optional, canonical_optional] at format
    exact optional_injective format
  · intro index chapter chapter' here there
    have at_ := congrArg (fun values => values[index]?) chapters
    simp only [List.getElem?_map, List.getElem?_mapIdx, here, there, Option.map_some,
      Option.some.injEq] at at_
    exact .of_fingerprint readers at_

/-! ## Reading what the fingerprint agrees on -/

theorem canonical_eq_str {text : String} :
    canonical value = .str text ↔ value = .str text := by
  cases value <;> simp [canonical]

theorem eq_str_congr (same : canonical value = canonical value')
    (text : String) : value = .str text ↔ value' = .str text := by
  rw [← canonical_eq_str, same, canonical_eq_str]

theorem eligible_congr {quality quality' : Dict String PyVal}
    (status : canonical (getOrNone quality "status") = canonical (getOrNone quality' "status"))
    (eligibility : canonical (getOrNone quality "eligibility") =
      canonical (getOrNone quality' "eligibility")) :
    agendaChapterEligible quality = agendaChapterEligible quality' := by
  unfold agendaChapterEligible
  simp only [eq_str_congr status, eq_str_congr eligibility]

@[simp] theorem asInt?_canonical (value : PyVal) : asInt? (canonical value) = asInt? value := by
  cases value <;> rfl

@[simp] theorem float_canonical (value : PyVal) :
    readers.float (canonical value) = readers.float value := by
  cases value <;> rfl

theorem float_congr (same : canonical value = canonical value') :
    readers.float value = readers.float value' := by
  rw [← float_canonical, same, float_canonical]

theorem lookupIndex_congr (index : Nat) (same : canonical (getOrNone chapter "source_index") =
      canonical (getOrNone chapter' "source_index")) :
    lookupIndex chapter index = lookupIndex chapter' index := by
  rw [lookupIndex, lookupIndex, ← asInt?_canonical, same, asInt?_canonical]

theorem chapterStart_eq (chapter : Chapter) : chapterStart readers chapter =
    ((readers.float (getOrNone chapter "start")).map (max 0)).getD 0 := by
  unfold chapterStart getOrNone
  cases chapter.get? "start" with
  | none => rfl
  | some value => rfl

theorem nextStart_eq (start : ℚ) (next : Chapter) : nextStart readers start next =
    if (next.get? "start").isSome then (readers.float (getOrNone next "start")).map (max start)
    else some start := by
  unfold nextStart getOrNone
  cases next.get? "start" with
  | none => simp [Readers.float]
  | some value => rfl

theorem nextStart_congr_iff {start : ℚ} {next next' : Chapter}
    (same : canonical (getOrNone next "start") = canonical (getOrNone next' "start")) :
    nextStart readers start next = nextStart readers start next' ↔
      (next.get? "start").isSome = (next'.get? "start").isSome := by
  rw [nextStart_eq, nextStart_eq, float_congr readers same]
  cases here : next.get? "start" with
  | none =>
      cases there : next'.get? "start" with
      | none => simp
      | some value =>
          have none_ : canonical value = .none := by
            simpa [getOrNone, here, there, canonical] using same.symm
          have unread : readers.float (getOrNone next' "start") = none := by
            rw [getOrNone, there, Option.getD_some, ← float_canonical, none_]
            rfl
          simp [unread]
  | some value =>
      cases there : next'.get? "start" with
      | some value => simp
      | none =>
          have unread : readers.float (getOrNone next' "start") = none := by
            simp [getOrNone, there, Readers.float]
          simp [unread]

/-- After the first chapter, a start is missing in both lists or in neither. -/
def StartsAgree (served served' : List Chapter) : Prop :=
  ∀ index, (served[index + 1]?).map (fun chapter => (chapter.get? "start").isSome) =
    (served'[index + 1]?).map fun chapter => (chapter.get? "start").isSome

variable {readers} {ep ep' : Episode D} {served served' : List Chapter}

theorem SameEpisode.partner (same : SameEpisode readers ep ep' served served')
    (here : served[index]? = some chapter) :
    ∃ other, served'[index]? = some other := by
  have inside := (List.getElem?_eq_some_iff.mp here).1
  rw [same.count] at inside
  exact ⟨_, List.getElem?_eq_getElem inside⟩

theorem SameEpisode.no_partner (same : SameEpisode readers ep ep' served served')
    (here : served[index]? = none) : served'[index]? = none := by
  rw [List.getElem?_eq_none_iff, ← same.count, ← List.getElem?_eq_none_iff, here]

theorem SameEpisode.eligible (same : SameEpisode readers ep ep' served served') :
    agendaChapterEligible ep.agendaTextQuality = agendaChapterEligible ep'.agendaTextQuality :=
  eligible_congr same.status same.eligibility

theorem SameEpisode.backupItems (same : SameEpisode readers ep ep' served served') :
    backupItems readers storage ep = backupItems readers storage ep' := by
  rw [Tagging.backupItems, same.agendaBackupKey, Tagging.backupItems]

theorem SameEpisode.agendaItemContext (same : SameEpisode readers ep ep' served served') :
    agendaItemContext readers storage ep = agendaItemContext readers storage ep' := by
  rw [Tagging.agendaItemContext, same.eligible, same.backupItems, Tagging.agendaItemContext]

theorem SameEpisode.transcriptSegments (same : SameEpisode readers ep ep' served served') :
    transcriptSegments readers storage ep = transcriptSegments readers storage ep' := by
  rw [Tagging.transcriptSegments, same.transcriptKey, same.transcriptFormat,
    Tagging.transcriptSegments]

theorem SameEpisode.agendaText (same : SameEpisode readers ep ep' served served')
    (titles : List String) :
    agendaText readers storage ep titles = agendaText readers storage ep' titles := by
  have backup : episodeBackupText readers storage ep = episodeBackupText readers storage ep' := by
    rw [episodeBackupText, same.backupItems, episodeBackupText]
  unfold Tagging.agendaText
  rw [same.agendaTextKey, same.eligible, backup]

/-- A chapter reads alike where the next one starts alike. -/
theorem SameEpisode.chapterInput_eq_iff (same : SameEpisode readers ep ep' served served')
    (here : served[index]? = some chapter) (there : served'[index]? = some chapter') :
    chapterInput readers storage ep served index chapter =
        chapterInput readers storage ep' served' index chapter' ↔
      (chapterInput readers storage ep served index chapter).stop =
        (chapterInput readers storage ep' served' index chapter').stop := by
  have told := same.chapters index chapter chapter' here there
  have start : chapterStart readers chapter = chapterStart readers chapter' := by
    rw [chapterStart_eq, chapterStart_eq, float_congr readers told.start]
  have position := lookupIndex_congr index told.sourceIndex
  refine ⟨congrArg _, fun stop => ?_⟩
  simp only [chapterInput] at stop ⊢
  rw [← start] at stop ⊢
  rw [← stop, told.chapterId, told.title, same.agendaItemContext, same.transcriptSegments,
    position]

theorem SameEpisode.stop_eq_iff (same : SameEpisode readers ep ep' served served')
    (here : served[index]? = some chapter) (there : served'[index]? = some chapter') :
    (chapterInput readers storage ep served index chapter).stop =
        (chapterInput readers storage ep' served' index chapter').stop ↔
      (served[index + 1]?).map (fun chapter => (chapter.get? "start").isSome) =
        (served'[index + 1]?).map fun chapter => (chapter.get? "start").isSome := by
  have told := same.chapters index chapter chapter' here there
  have start : chapterStart readers chapter = chapterStart readers chapter' := by
    rw [chapterStart_eq, chapterStart_eq, float_congr readers told.start]
  simp only [chapterInput]
  cases next : served[index + 1]? with
  | none =>
      simp [same.no_partner next]
  | some chapter =>
      obtain ⟨other, next'⟩ := same.partner next
      rw [next', Option.bind_some, Option.bind_some, Option.map_some, Option.map_some,
        Option.some.injEq, start]
      exact nextStart_congr_iff readers (same.chapters _ _ _ next next').start

theorem SameEpisode.chapterInputs_eq_iff (same : SameEpisode readers ep ep' served served') :
    served.mapIdx (chapterInput readers storage ep served) =
        served'.mapIdx (chapterInput readers storage ep' served') ↔
      StartsAgree served served' := by
  constructor
  · intro inputs index
    cases here : served[index]? with
    | none =>
        have short := List.getElem?_eq_none_iff.mp here
        rw [List.getElem?_eq_none_iff.mpr (by omega), List.getElem?_eq_none_iff.mpr
          (by rw [← same.count]; omega)]
    | some chapter =>
        obtain ⟨chapter', there⟩ := same.partner here
        have at_ := congrArg (fun values => values[index]?) inputs
        simp only [List.getElem?_mapIdx, here, there, Option.map_some, Option.some.injEq] at at_
        exact (same.stop_eq_iff storage here there).mp (congrArg _ at_)
  · intro agree
    apply List.ext_getElem?
    intro index
    rw [List.getElem?_mapIdx, List.getElem?_mapIdx]
    cases here : served[index]? with
    | none =>
        rw [same.no_partner here]
        rfl
    | some chapter =>
        obtain ⟨chapter', there⟩ := same.partner here
        rw [there, Option.map_some, Option.map_some,
          (same.chapterInput_eq_iff storage here there).mpr
            ((same.stop_eq_iff storage here there).mpr (agree index))]

theorem titleOf_eq_empty_iff (spelled : ∀ value : PyVal, value.truthy → readers.display value ≠ "")
    (chapter : Chapter) :
    titleOf readers chapter = "" ↔ (getOrNone chapter "title").truthy = false := by
  unfold titleOf Readers.text
  cases title : getOrNone chapter "title" with
  | str text => by_cases empty : text = "" <;> simp [PyVal.truthy, empty]
  | none => simp [PyVal.truthy]
  | bool value =>
      cases value with
      | false => simp [PyVal.truthy]
      | true => simpa [PyVal.truthy] using spelled (.bool true) rfl
  | num value => by_cases zero : value = 0 <;> simp [PyVal.truthy, zero, spelled]
  | list elements => cases elements <;> simp [PyVal.truthy, spelled]
  | tuple elements => cases elements <;> simp [PyVal.truthy, spelled]
  | dict entries => cases entries <;> simp [PyVal.truthy, spelled]

theorem chapterTitles_eq (spelled : ∀ value : PyVal, value.truthy → readers.display value ≠ "")
    (served : List Chapter) :
    chapterTitles readers served = (served.map (titleOf readers)).filter (· ≠ "") := by
  rw [chapterTitles, List.filter_map]
  congr 1
  refine List.filter_congr fun chapter _ => ?_
  rw [Function.comp_apply, Bool.eq_iff_iff, decide_eq_true_iff, Ne,
    titleOf_eq_empty_iff spelled chapter, Bool.not_eq_false]

theorem titles_alike (alike : List.Forall₂ Alike served served') :
    served.map (titleOf readers) = served'.map (titleOf readers) := by
  induction alike with
  | nil => rfl
  | cons head _ induction =>
      rw [List.map_cons, List.map_cons, induction, titleOf, getOrNone, head "title" (by decide)]
      rfl

theorem SameEpisode.titles (same : SameEpisode readers ep ep' served served') :
    served.map (titleOf readers) = served'.map (titleOf readers) := by
  apply List.ext_getElem?
  intro index
  rw [List.getElem?_map, List.getElem?_map]
  cases here : served[index]? with
  | none =>
      rw [same.no_partner here]
  | some chapter =>
      obtain ⟨chapter', there⟩ := same.partner here
      rw [there, Option.map_some, Option.map_some,
        (same.chapters index chapter chapter' here there).title]

theorem episodeTagInputs_of_served
    (spelled : ∀ value : PyVal, value.truthy → readers.display value ≠ "")
    (known : episodeServedChapters ep true = .ok served) :
    episodeTagInputs readers storage ep = .ok
      { titles := "\n".intercalate ((served.map (titleOf readers)).filter (· ≠ ""))
        agendaText := agendaText readers storage ep
          ((served.map (titleOf readers)).filter (· ≠ ""))
        transcript := (readStorageBytes storage ep.transcriptKey).elim "" fun data =>
          readers.textFromTranscript data ep.transcriptFormat } := by
  have together := episodeServedChapters_alike ep
  rw [known] at together
  cases plain : episodeServedChapters ep false with
  | error fault =>
      rw [plain] at together
      cases together
  | ok others =>
      rw [plain] at together
      cases together with
      | ok alike =>
          rw [episodeTagInputs, plain, titles_alike alike, ← chapterTitles_eq spelled others]
          rfl

theorem SameEpisode.episodeTagInputs
    (spelled : ∀ value : PyVal, value.truthy → readers.display value ≠ "")
    (known : episodeServedChapters ep true = .ok served)
    (known' : episodeServedChapters ep' true = .ok served')
    (same : SameEpisode readers ep ep' served served') :
    episodeTagInputs readers storage ep = episodeTagInputs readers storage ep' := by
  rw [episodeTagInputs_of_served storage spelled known,
    episodeTagInputs_of_served storage spelled known', same.titles, same.agendaText,
    same.transcriptKey, same.transcriptFormat]

theorem canonical_input_stop {input input' : ChapterInput}
    (same : canonical input.value = canonical input'.value) : input.stop = input'.stop := by
  have stop := field_congr same "end" rfl rfl
  revert stop
  cases input.stop <;> cases input'.stop <;> simp [canonical]

theorem SameEpisode.recipe_eq_iff (same : SameEpisode readers ep ep' served served')
    (unbroken : Function.Injective readers.digest)
    (entries : settings.entries = settings'.entries) (inputs : EpisodeInputs) :
    readers.digest (canonical (recipePayload settings inputs
          (served.mapIdx (chapterInput readers storage ep served)))) =
        readers.digest (canonical (recipePayload settings' inputs
          (served'.mapIdx (chapterInput readers storage ep' served')))) ↔
      StartsAgree served served' := by
  rw [← same.chapterInputs_eq_iff storage]
  constructor
  · intro equal
    have chapters := field_congr (unbroken equal) "chapters" rfl rfl
    simp only [canonical, canonicalAll_eq_map, PyVal.list.injEq, List.map_map] at chapters
    apply List.ext_getElem?
    intro index
    have at_ := congrArg (fun values => values[index]?) chapters
    simp only [List.getElem?_map, List.getElem?_mapIdx, Option.map_map] at at_ ⊢
    cases here : served[index]? with
    | none =>
        rw [same.no_partner here]
        rfl
    | some chapter =>
        obtain ⟨chapter', there⟩ := same.partner here
        rw [here, there, Option.map_some, Option.map_some, Option.some.injEq] at at_
        rw [there, Option.map_some, Option.map_some,
          (same.chapterInput_eq_iff storage here there).mpr (canonical_input_stop at_)]
  · intro equal
    rw [recipePayload, recipePayload, equal, entries]

variable (readers) {fingerprint : D}

theorem fingerprints_sound (unbroken : Function.Injective readers.digest)
    (spelled : ∀ value : PyVal, value.truthy → readers.display value ≠ "")
    (known : episodeServedChapters ep true = .ok served)
    (known' : episodeServedChapters ep' true = .ok served')
    (computed : tagInputFingerprint readers ep settings = .ok fingerprint)
    (computed' : tagInputFingerprint readers ep' settings' = .ok fingerprint) :
    episodeTagInputs readers storage ep = episodeTagInputs readers storage ep' ∧
      (chapterTagInputs readers storage ep = chapterTagInputs readers storage ep' ↔
        StartsAgree served served') ∧
      (tagRecipeHash readers storage ep settings = tagRecipeHash readers storage ep' settings' ↔
        StartsAgree served served') := by
  have digests : readers.digest (canonical (fingerprintPayload readers ep settings served)) =
      readers.digest (canonical (fingerprintPayload readers ep' settings' served')) := by
    rw [tagInputFingerprint, known] at computed
    rw [tagInputFingerprint, known'] at computed'
    exact Except.ok.inj (computed.trans computed'.symm)
  have payloads := unbroken digests
  have same := SameEpisode.of_fingerprint readers payloads
  have inputs := same.episodeTagInputs storage spelled known known'
  have chapters : chapterTagInputs readers storage ep =
      .ok (served.mapIdx (chapterInput readers storage ep served)) := by
    rw [chapterTagInputs, known]
    rfl
  have chapters' : chapterTagInputs readers storage ep' =
      .ok (served'.mapIdx (chapterInput readers storage ep' served')) := by
    rw [chapterTagInputs, known']
    rfl
  refine ⟨inputs, ?_, ?_⟩
  · rw [chapters, chapters', ← same.chapterInputs_eq_iff storage]
    exact ⟨Except.ok.inj, congrArg _⟩
  · rw [tagRecipeHash, tagRecipeHash, ← inputs, chapters, chapters',
      episodeTagInputs_of_served storage spelled known,
      ← same.recipe_eq_iff storage unbroken (entries_congr payloads)]
    exact ⟨Except.ok.inj, congrArg _⟩

theorem stored_of_skipped [DecidableEq D] (stored : ep.tagsInputFingerprint = some fingerprint)
    (skipped : episodeNeedsTagging readers ep settings = .ok false) :
    tagInputFingerprint readers ep settings = .ok fingerprint := by
  unfold episodeNeedsTagging at skipped
  cases served : episodeServedChapters ep false with
  | error fault =>
      rw [served] at skipped
      cases skipped
  | ok chapters =>
      cases computed : tagInputFingerprint readers ep settings with
      | error fault =>
          rw [served, computed] at skipped
          cases skipped
      | ok cheap =>
          rw [served, computed] at skipped
          have unchanged := of_decide_eq_false (Except.ok.inj skipped)
          rw [not_not] at unchanged
          rw [Option.some.inj (unchanged.1.1.symm.trans stored)]

/-- The fingerprint answers for what the tagger reads, and a skipped episode for its recipe,
exactly where no start is missing in one state and none in the other. -/
theorem fingerprint_sound_iff [DecidableEq D] {settings settings' : Settings} {fingerprint : D}
    (unbroken : Function.Injective readers.digest)
    (spelled : ∀ value : PyVal, value.truthy → readers.display value ≠ "")
    (known : episodeServedChapters ep true = .ok served)
    (known' : episodeServedChapters ep' true = .ok served')
    (computed : tagInputFingerprint readers ep settings = .ok fingerprint) :
    (tagInputFingerprint readers ep' settings' = .ok fingerprint →
      episodeTagInputs readers storage ep = episodeTagInputs readers storage ep' ∧
        (chapterTagInputs readers storage ep = chapterTagInputs readers storage ep' ↔
          StartsAgree served served') ∧
        (tagRecipeHash readers storage ep settings = tagRecipeHash readers storage ep' settings' ↔
          StartsAgree served served')) ∧
    (ep'.tagsInputFingerprint = some fingerprint →
      episodeNeedsTagging readers ep' settings' = .ok false →
        (tagRecipeHash readers storage ep settings = tagRecipeHash readers storage ep' settings' ↔
          StartsAgree served served')) :=
  ⟨fingerprints_sound readers storage unbroken spelled known known' computed,
    fun stored skipped => (fingerprints_sound readers storage unbroken spelled known known' computed
      (stored_of_skipped readers stored skipped)).2.2⟩

end

/-! ## A start that is none -/

def plainReaders : Readers PyVal where
  display _ := "value"
  parseFloat _ := none
  decode _ := "agenda"
  loads _ := none
  textFromTranscript _ _ := "Hello."
  timedTranscriptSegments _ _ := [⟨5, some 8, "Hello."⟩]
  stripPreamble text _ := text
  digest := id
  chapterDigest _ := "0123456789ab"

def plainSettings : Settings where
  taxonomy := "1"
  tagger := "2"
  chapterPipelineVersion := "3"
  llmEnabled := false
  llmRoute := ""
  promptVersion := "4"
  llmSchemaVersion := "5"
  admissionPolicy := ""

def twoChapters (later : Chapter) : Episode PyVal where
  chapters := [[("title", .str "Opening"), ("start", .num 0)], later]
  transcriptKey := some "transcripts/1"
  transcriptFormat := some "vtt"

def missingStart : Chapter := [("title", .str "Vote")]

def noneStart : Chapter := [("title", .str "Vote"), ("start", .none)]

def oneArtifact (key : String) : Option (List UInt8) :=
  if key = "transcripts/1" then some [65] else none

def timedStart : Chapter := [("title", .str "Vote"), ("start", .num 10)]

/-- The same chapter with a field that the tagger does not read. -/
def timedStartAndEnd : Chapter :=
  [("title", .str "Vote"), ("start", .num 10), ("end", .num 20)]

theorem served_twoChapters (later : Chapter) :
    episodeServedChapters (twoChapters later) true =
      .ok [[("title", .str "Opening"), ("start", .num 0)], later] := rfl

theorem fingerprint_twoChapters (later : Chapter) :
    tagInputFingerprint plainReaders (twoChapters later) plainSettings =
      .ok (canonical (fingerprintPayload plainReaders (twoChapters later) plainSettings
        [[("title", .str "Opening"), ("start", .num 0)], later])) := rfl

theorem fingerprint_sound_timed :
    chapterTagInputs plainReaders oneArtifact (twoChapters timedStart) =
      chapterTagInputs plainReaders oneArtifact (twoChapters timedStartAndEnd) := by
  have spelled : ∀ value : PyVal, value.truthy → plainReaders.display value ≠ "" :=
    fun _ _ => show "value" ≠ "" by decide
  have sound := (fingerprint_sound_iff plainReaders oneArtifact Function.injective_id spelled
    (served_twoChapters timedStart) (served_twoChapters timedStartAndEnd)
    (fingerprint_twoChapters timedStart)).1 (fingerprint_twoChapters timedStartAndEnd)
  refine sound.2.1.mpr fun index => ?_
  cases index <;> rfl

/-- Two states with one fingerprint that the tagger reads differently: the first chapter ends where
it starts, or does not end. -/
theorem none_start_unnoticed :
    tagInputFingerprint plainReaders (twoChapters missingStart) plainSettings =
        tagInputFingerprint plainReaders (twoChapters noneStart) plainSettings ∧
      chapterTagInputs plainReaders oneArtifact (twoChapters missingStart) ≠
        chapterTagInputs plainReaders oneArtifact (twoChapters noneStart) := by
  refine ⟨rfl, fun same => ?_⟩
  have stops := congrArg (fun result => result.toOption.map fun inputs =>
    inputs.map ChapterInput.stop) same
  exact absurd stops (by decide +kernel)

end CityPods.Tagging
