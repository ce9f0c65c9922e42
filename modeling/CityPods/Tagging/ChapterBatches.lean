import Mathlib.Data.List.Nodup
import CityPods.Foundation.Bins
import CityPods.Tagging.Fingerprint

/-! # Chapter batches

The chapters of a meeting are tagged in batches, each extended while it still
fits a route. A batch then passes the gates of a request, and the answers are
admitted and merged by chapter.
-/

namespace CityPods.Tagging

open Foundation
open Foundation.Whitespace (isBlank)

/-! ## Routes -/

structure Route where
  routeId : String
  model : String
  inputContextLimit : Nat
  outputContextLimit : Nat
  tpm : Option Nat

def tagOutputTokenBudget : Nat := 12288

/-- 7 MiB. -/
def taggerMaxRequestBytes : Nat := 7 * 1024 * 1024

structure Sizes where
  tokens : List ChapterInput → Nat
  bytes : List ChapterInput → Nat

section

variable (routes : List Route) (sizes : Sizes)

def Route.fits (chapters : List ChapterInput) (route : Route) : Bool :=
  decide (sizes.tokens chapters ≤ route.inputContextLimit) &&
    decide (tagOutputTokenBudget ≤ route.outputContextLimit) &&
    route.tpm.all fun tpm => decide (sizes.tokens chapters + tagOutputTokenBudget ≤ tpm)

def fitsAnyAllowedRoute (chapters : List ChapterInput) : Bool :=
  decide (sizes.bytes chapters ≤ taggerMaxRequestBytes) && routes.any (Route.fits sizes chapters)

/-- The tokens each minute of the routes that have such a cap, by name. -/
def cappedTpm : Dict String Nat :=
  routes.foldl (fun capped route =>
    match route.tpm with
    | none => capped
    | some tpm =>
        Dict.set capped (if route.routeId = "" then route.model else route.routeId) tpm) []

/-! ## Batches -/

/-- Put a chapter with the open batch, or into a batch that it opens; `none` where it is too large
for any route. -/
def placeChapter (bins : Bins ChapterInput) (chapter : ChapterInput) :
    Option (Bins ChapterInput) :=
  bins.placeFitting (fitsAnyAllowedRoute routes sizes) chapter

def batches (chapters : List ChapterInput) : Option (List (List ChapterInput)) :=
  (chapters.foldlM (placeChapter routes sizes) Bins.empty).map fun bins => bins.flush.closed

end

/-! ## Requests and their answers -/

inductive Place
  | agenda
  | transcript
  deriving DecidableEq

structure Evidence where
  place : Place
  quote : String
  documentUrl : Option String := none
  documentLocator : Option String := none
  chapterId : Option String := none

structure Suggestion where
  id : String
  chapterId : Option String
  confidence : ℚ
  explanation : String
  evidence : List Evidence

structure Request where
  recipeHash : String
  chapters : List ChapterInput

/-- The scheduler queues a request, or hands out its result with the model that answered. -/
inductive Outcome
  | handle
  | result (tags : List Suggestion) (model : String)

structure AdmittedEvidence where
  place : Place
  quote : String
  chapterId : String
  start : Option ℚ := none
  stop : Option ℚ := none
  documentUrl : Option String := none
  documentLocator : Option String := none
  deriving DecidableEq

structure Admitted where
  id : String
  confidence : ℚ
  explanation : String
  evidence : List AdmittedEvidence
  jobRecipeHash : String
  inputTokensEstimate : Nat
  requestBytesEstimate : Nat
  deriving DecidableEq

/-- What a call is given: the taxonomy's ids and the official documents, the routes and sizes, how
texts are compared, and the scheduler's answers. No model has the name of the refusal. -/
structure Tagger where
  backendModel : String
  allowed : List String
  documentUrls : List (Option String)
  routes : List Route
  sizes : Sizes
  normalize : String → List Char
  transcriptRegion : String → List TimedSegment → Option ℚ × Option ℚ
  batchDigest : List ChapterInput → String
  runInference : Request → Outcome
  named : ∀ request tags, runInference request ≠ .result tags "payload-too-large"

section

variable (tagger : Tagger)

def containsText (text quote : String) : Bool :=
  !isBlank quote && decide (tagger.normalize quote <:+: tagger.normalize text)

def admitEvidence (chapter : ChapterInput) (item : Evidence) : Option AdmittedEvidence :=
  if item.chapterId ≠ none ∧ item.chapterId ≠ some chapter.chapterId then none
  else
    let text :=
      match item.place with
      | .transcript => chapter.transcriptText
      | .agenda => chapter.title ++ "\n" ++ chapter.agendaText
    if !containsText tagger text item.quote then none
    else
      match item.place with
      | .transcript =>
          let region := tagger.transcriptRegion item.quote chapter.transcriptSegments
          some { place := .transcript, quote := item.quote, chapterId := chapter.chapterId,
                 start := region.1, stop := region.2 }
      | .agenda =>
          let cited := decide (item.documentUrl ∈ tagger.documentUrls)
          some { place := .agenda, quote := item.quote, chapterId := chapter.chapterId,
                 documentUrl := if cited then item.documentUrl else none
                 documentLocator := if cited then
                     item.documentLocator.filter fun locator => decide (locator ≠ "")
                   else none }

/-- The suggestions admitted so far by chapter, and those seen. -/
structure Admission where
  seen : List (String × String) := []
  admitted : Dict String (List Admitted) := []

def admitSuggestion (request : Request) (admission : Admission) (suggestion : Suggestion) :
    Admission :=
  match suggestion.chapterId with
  | none => admission
  | some chapterId =>
      match request.chapters.reverse.find? fun chapter => chapter.chapterId = chapterId with
      | none => admission
      | some chapter =>
          if suggestion.id ∉ tagger.allowed ∨ (chapterId, suggestion.id) ∈ admission.seen then
            admission
          else
            let evidence := suggestion.evidence.filterMap (admitEvidence tagger chapter)
            let seen := (chapterId, suggestion.id) :: admission.seen
            if evidence = [] then { admission with seen := seen }
            else
              let value : Admitted :=
                { id := suggestion.id, confidence := suggestion.confidence,
                  explanation := suggestion.explanation, evidence := evidence,
                  jobRecipeHash := request.recipeHash,
                  inputTokensEstimate := tagger.sizes.tokens request.chapters,
                  requestBytesEstimate := tagger.sizes.bytes request.chapters }
              { seen := seen
                admitted := Dict.set admission.admitted chapterId
                  ((admission.admitted.get? chapterId).getD [] ++ [value]) }

def chapterSuggestions (request : Request) (tags : List Suggestion) : Dict String (List Admitted) :=
  (tags.foldl (admitSuggestion tagger request) {}).admitted

structure Answer where
  chapterTags : Dict String (List Admitted)
  pending : Bool
  resolvedModel : Option String

def payloadTooLarge : Answer := ⟨[], true, some "payload-too-large"⟩

/-- No candidate route has room for the request. -/
def exceedsContext (chapters : List ChapterInput) : Bool :=
  decide (taggerMaxRequestBytes < tagger.sizes.bytes chapters) ||
    tagger.routes.all fun route =>
      decide (route.inputContextLimit < tagger.sizes.tokens chapters) ||
        decide (route.outputContextLimit < tagOutputTokenBudget)

/-- There are capped routes, and the request is above all of their caps. -/
def exceedsTpm (chapters : List ChapterInput) : Bool :=
  decide (cappedTpm tagger.routes ≠ []) && (cappedTpm tagger.routes).values.all fun tpm =>
    decide (tpm < tagger.sizes.tokens chapters + tagOutputTokenBudget)

def Outcome.answer (request : Request) : Outcome → Answer
  | .handle => ⟨[], true, none⟩
  | .result tags model => ⟨chapterSuggestions tagger request tags, false, some model⟩

def tagBatch (request : Request) : Answer × List Request :=
  if tagger.routes ≠ [] ∧ exceedsContext tagger request.chapters then (payloadTooLarge, [])
  else if exceedsTpm tagger request.chapters then (payloadTooLarge, [])
  else ((tagger.runInference request).answer tagger request, [request])

def childRecipe (recipeHash : String) (index : Nat) (batch : List ChapterInput) : String :=
  recipeHash ++ "-tag-batch-" ++ toString index ++ "-" ++ tagger.batchDigest batch

def mergeTags (merged tags : Dict String (List Admitted)) : Dict String (List Admitted) :=
  tags.foldl (fun merged entry =>
    Dict.set merged entry.1 ((merged.get? entry.1).getD [] ++ entry.2)) merged

/-- What the batches have answered so far. -/
structure Merging where
  merged : Dict String (List Admitted) := []
  pending : Bool := false
  tooLarge : Bool := false
  resolvedModels : List String := []
  submitted : List Request := []

def Merging.add (merging : Merging) (answered : Answer × List Request) : Merging where
  merged := mergeTags merging.merged answered.1.chapterTags
  pending := merging.pending || answered.1.pending
  tooLarge := merging.tooLarge || answered.1.resolvedModel = some "payload-too-large"
  resolvedModels := merging.resolvedModels ++ answered.1.resolvedModel.toList.filter fun model =>
    decide (model ≠ "" ∧ model ≠ "payload-too-large")
  submitted := merging.submitted ++ answered.2

def Merging.answer (merging : Merging) : Answer × List Request :=
  (if merging.pending then
    ⟨[], true, if merging.tooLarge then some "payload-too-large" else none⟩
  else
    ⟨merging.merged, false, some (merging.resolvedModels.getLast?.getD tagger.backendModel)⟩,
    merging.submitted)

def requests (recipeHash : String) (batches : List (List ChapterInput)) : List Request :=
  batches.mapIdx fun index batch => ⟨childRecipe tagger recipeHash index batch, batch⟩

/-- `llm_tag_suggestions` for chapters, with the requests that it has sent. -/
def llmTagSuggestions (recipeHash : String) (chapters : List ChapterInput) :
    Answer × List Request :=
  if tagger.routes ≠ [] ∧ chapters ≠ [] then
    match batches tagger.routes tagger.sizes chapters with
    | none => (payloadTooLarge, [])
    | some batches =>
        if 1 < batches.length then
          ((((requests tagger recipeHash batches).map (tagBatch tagger)).foldl Merging.add {}).answer
            tagger)
        else tagBatch tagger ⟨recipeHash, chapters⟩
  else tagBatch tagger ⟨recipeHash, chapters⟩

/-! ## The batches that are sent -/

variable {tagger} {routes : List Route} {sizes : Sizes} {chapters : List ChapterInput}
variable {runs : List (List ChapterInput)}

theorem batches_eq_some_iff : batches routes sizes chapters = some runs ↔
      LongestRuns (fitsAnyAllowedRoute routes sizes) chapters runs := by
  have placed := LongestRuns.placeAll (fitsAnyAllowedRoute routes sizes) chapters
  change (∀ bins, chapters.foldlM (placeChapter routes sizes) Bins.empty = some bins → _) ∧
    (chapters.foldlM (placeChapter routes sizes) Bins.empty = none → _) at placed
  unfold batches
  constructor
  · intro same
    obtain ⟨bins, found, rfl⟩ := Option.map_eq_some_iff.mp same
    exact (placed.1 bins found).1
  · intro cut
    cases found : chapters.foldlM (placeChapter routes sizes) Bins.empty with
    | none => exact absurd cut (placed.2 found runs)
    | some bins => rw [Option.map_some, (placed.1 bins found).1.unique cut]

theorem not_exceedsContext (fits : fitsAnyAllowedRoute tagger.routes tagger.sizes chapters = true) :
    exceedsContext tagger chapters = false := by
  unfold fitsAnyAllowedRoute at fits
  rw [Bool.and_eq_true, decide_eq_true_eq, List.any_eq_true] at fits
  obtain ⟨small, route, listed, room⟩ := fits
  unfold Route.fits at room
  simp only [Bool.and_eq_true, decide_eq_true_eq] at room
  unfold exceedsContext
  rw [Bool.or_eq_false_iff, decide_eq_false_iff_not, not_lt, List.all_eq_false]
  refine ⟨small, route, listed, ?_⟩
  simp only [Bool.or_eq_true, decide_eq_true_eq, not_or, not_lt]
  exact ⟨room.1.1, room.1.2⟩

theorem tagBatch_of_fits {request : Request}
    (fits : fitsAnyAllowedRoute tagger.routes tagger.sizes request.chapters = true) :
    tagBatch tagger request =
      if exceedsTpm tagger request.chapters then (payloadTooLarge, [])
      else ((tagger.runInference request).answer tagger request, [request]) := by
  unfold tagBatch
  rw [if_neg fun both => by rw [not_exceedsContext fits] at both; cases both.2]

/-! ## Admission by chapter -/

structure Own (request : Request) (tags : Dict String (List Admitted)) : Prop where
  nodup : tags.keys.Nodup
  own : ∀ key ∈ tags.keys, key ∈ request.chapters.map ChapterInput.chapterId

theorem Own.admitSuggestion {request : Request} {admission : Admission}
    (held : Own request admission.admitted) (suggestion : Suggestion) :
    Own request (admitSuggestion tagger request admission suggestion).admitted := by
  unfold Tagging.admitSuggestion
  cases suggestion.chapterId with
  | none => exact held
  | some chapterId =>
      dsimp only
      cases found : request.chapters.reverse.find? fun chapter =>
          chapter.chapterId = chapterId with
      | none => exact held
      | some chapter =>
          have listed : chapter ∈ request.chapters :=
            List.mem_reverse.mp (List.mem_of_find?_eq_some found)
          have same : chapter.chapterId = chapterId := by simpa using List.find?_some found
          dsimp only
          split
          · exact held
          · split
            · exact held
            · refine ⟨Dict.nodup_keys_set held.nodup _ _, fun key among => ?_⟩
              obtain ⟨entry, member, rfl⟩ := List.mem_map.mp among
              rcases Dict.mem_set member with new | old
              · rw [new, ← same]
                exact List.mem_map_of_mem listed
              · exact held.own entry.1 (List.mem_map_of_mem old)

theorem chapterSuggestions_own (request : Request) (tags : List Suggestion) :
    Own request (chapterSuggestions tagger request tags) := by
  unfold chapterSuggestions
  refine List.foldlRecOn (motive := fun admission : Admission =>
    Own request admission.admitted) tags _ ?_ ?_
  · exact ⟨List.nodup_nil, fun key listed => absurd listed List.not_mem_nil⟩
  · exact fun admission held suggestion _ => held.admitSuggestion suggestion

variable {tags : Dict String (List Admitted)}

theorem mergeTags_get? (nodup : tags.keys.Nodup)
    (merged : Dict String (List Admitted)) (key : String) :
    (mergeTags merged tags).get? key =
      ((tags.get? key).map fun more => (merged.get? key).getD [] ++ more).or (merged.get? key) := by
  induction tags generalizing merged with
  | nil => rfl
  | cons entry rest induction =>
      obtain ⟨head, more⟩ := entry
      have parts := List.nodup_cons.mp nodup
      have step : mergeTags merged ((head, more) :: rest) =
          mergeTags (Dict.set merged head ((merged.get? head).getD [] ++ more)) rest := rfl
      rw [step, induction parts.2, Dict.get?_set, Dict.get?_cons]
      by_cases same : head = key
      · subst same
        have absent : Dict.get? rest head = none := Dict.get?_eq_none_iff.mpr parts.1
        simp [absent]
      · simp [same]

/-- A chapter that one of the answers is about has what that answer holds for it. -/
theorem foldl_mergeTags {before after : List (Dict String (List Admitted))}
    {key : String} (nodup : tags.keys.Nodup)
    (others : ∀ other ∈ before ++ after, other.keys.Nodup ∧ other.get? key = none) :
    ((before ++ tags :: after).foldl mergeTags []).get? key = tags.get? key := by
  have untouched : ∀ (dicts : List (Dict String (List Admitted))) (merged),
      (∀ other ∈ dicts, other.keys.Nodup ∧ other.get? key = none) →
      (dicts.foldl mergeTags merged).get? key = merged.get? key := by
    intro dicts
    induction dicts with
    | nil => exact fun _ _ => rfl
    | cons other rest induction =>
        intro merged absent
        have here := absent other List.mem_cons_self
        rw [List.foldl_cons, induction _ fun one listed => absent one (List.mem_cons_of_mem _ listed),
          mergeTags_get? here.1, here.2]
        rfl
  rw [List.foldl_append, List.foldl_cons,
    untouched after _ fun other listed => others other (List.mem_append_right _ listed),
    mergeTags_get? nodup,
    untouched before _ fun other listed => others other (List.mem_append_left _ listed)]
  cases tags.get? key <;> rfl

/-! ## The answers together -/

theorem foldl_add (answers : List (Answer × List Request)) (merging : Merging) :
    answers.foldl Merging.add merging =
      { merged := (answers.map fun answer => answer.1.chapterTags).foldl mergeTags merging.merged
        pending := merging.pending || answers.any fun answer => answer.1.pending
        tooLarge := merging.tooLarge || answers.any fun answer =>
          decide (answer.1.resolvedModel = some "payload-too-large")
        resolvedModels := merging.resolvedModels ++ answers.flatMap fun answer =>
          answer.1.resolvedModel.toList.filter fun model =>
            decide (model ≠ "" ∧ model ≠ "payload-too-large")
        submitted := merging.submitted ++ answers.flatMap Prod.snd } := by
  induction answers generalizing merging with
  | nil => simp
  | cons answer rest induction =>
      rw [List.foldl_cons, induction]
      simp [Merging.add, Bool.or_assoc]

def Answer.Refused (answer : Answer) : Prop :=
  answer.pending = true ∧ answer.resolvedModel = some "payload-too-large"

variable (tagger) in
structure Delivered (chapters : List ChapterInput) (result : Answer × List Request) : Prop where
  inOrder : (result.2.map Request.chapters).flatten = chapters
  fits : ∀ request ∈ result.2,
    fitsAnyAllowedRoute tagger.routes tagger.sizes request.chapters = true
  merged : (∀ request ∈ result.2, ∃ tags model,
      tagger.runInference request = .result tags model) →
    result.1.pending = false ∧ ∀ request ∈ result.2, ∀ tags model,
      tagger.runInference request = .result tags model → ∀ chapter ∈ request.chapters,
        result.1.chapterTags.get? chapter.chapterId =
          (chapterSuggestions tagger request tags).get? chapter.chapterId

variable {request : Request} {sending : List Request}

theorem not_refused (request : Request) (outcome : Outcome)
    (named : ∀ tags, outcome ≠ .result tags "payload-too-large") :
    (outcome.answer tagger request).resolvedModel ≠ some "payload-too-large" := by
  cases outcome with
  | handle => exact fun same => by cases same
  | result tags model =>
      intro same
      exact named tags (by rw [Option.some.inj same])

theorem tagBatch_tooLarge_iff
    (fits : fitsAnyAllowedRoute tagger.routes tagger.sizes request.chapters = true) :
    (tagBatch tagger request).1.resolvedModel = some "payload-too-large" ↔
      exceedsTpm tagger request.chapters = true := by
  rw [tagBatch_of_fits fits]
  split
  · exact iff_of_true rfl ‹_›
  · exact iff_of_false (not_refused request _ (tagger.named request)) ‹_›

theorem tagBatch_pending_of_tooLarge (tooLarge : exceedsTpm tagger request.chapters = true)
    (fits : fitsAnyAllowedRoute tagger.routes tagger.sizes request.chapters = true) :
    (tagBatch tagger request).1.pending = true := by
  rw [tagBatch_of_fits fits, if_pos tooLarge]
  rfl

theorem tagBatch_refused_iff
    (fits : fitsAnyAllowedRoute tagger.routes tagger.sizes request.chapters = true) :
    (tagBatch tagger request).1.Refused ↔ exceedsTpm tagger request.chapters = true :=
  ⟨fun refused => (tagBatch_tooLarge_iff fits).mp refused.2,
    fun tooLarge => ⟨tagBatch_pending_of_tooLarge tooLarge fits,
      (tagBatch_tooLarge_iff fits).mpr tooLarge⟩⟩

theorem tagBatch_delivered
    (fits : fitsAnyAllowedRoute tagger.routes tagger.sizes request.chapters = true)
    (sent : exceedsTpm tagger request.chapters = false) :
    Delivered tagger request.chapters (tagBatch tagger request) := by
  rw [tagBatch_of_fits fits, sent]
  refine ⟨by simp, by simpa using fits, fun results => ?_⟩
  obtain ⟨tags, model, answered⟩ := results request (by simp)
  simp only [Bool.false_eq_true, if_false, List.mem_singleton, forall_eq, answered,
    Outcome.result.injEq]
  refine ⟨rfl, ?_⟩
  rintro tags' model' ⟨rfl, rfl⟩ chapter _
  rfl

/-! ## Several requests -/

def together (tagger : Tagger) (sending : List Request) : Answer × List Request :=
  ((sending.map (tagBatch tagger)).foldl Merging.add {}).answer tagger

theorem together_eq (sending : List Request) : together tagger sending =
    (if sending.any fun request => (tagBatch tagger request).1.pending then
      ⟨[], true, if sending.any fun request =>
          decide ((tagBatch tagger request).1.resolvedModel = some "payload-too-large") then
        some "payload-too-large" else none⟩
    else
      ⟨(sending.map fun request => (tagBatch tagger request).1.chapterTags).foldl mergeTags [],
        false, some ((sending.flatMap fun request =>
          (tagBatch tagger request).1.resolvedModel.toList.filter fun model =>
            decide (model ≠ "" ∧ model ≠ "payload-too-large")).getLast?.getD tagger.backendModel)⟩,
      sending.flatMap fun request => (tagBatch tagger request).2) := by
  rw [together, foldl_add]
  simp only [Merging.answer, Bool.false_or, List.any_map, Function.comp_def, List.map_map,
    List.nil_append, List.flatMap_map]

theorem together_refused_iff (fits : ∀ request ∈ sending,
      fitsAnyAllowedRoute tagger.routes tagger.sizes request.chapters = true) :
    (together tagger sending).1.Refused ↔
      ∃ request ∈ sending, exceedsTpm tagger request.chapters = true := by
  have tooLarge : (sending.any fun request =>
        decide ((tagBatch tagger request).1.resolvedModel = some "payload-too-large")) = true ↔
      ∃ request ∈ sending, exceedsTpm tagger request.chapters = true := by
    rw [List.any_eq_true]
    refine exists_congr fun request => and_congr_right fun listed => ?_
    rw [decide_eq_true_eq, tagBatch_tooLarge_iff (fits request listed)]
  rw [together_eq, ← tooLarge]
  constructor
  · intro refused
    split at refused
    · by_contra none_
      rw [if_neg none_] at refused
      cases refused.2
    · cases refused.1
  · intro found
    obtain ⟨request, listed, above⟩ := tooLarge.mp found
    have pending : (sending.any fun request => (tagBatch tagger request).1.pending) = true :=
      List.any_eq_true.mpr ⟨request, listed, tagBatch_pending_of_tooLarge above (fits request listed)⟩
    rw [if_pos pending, if_pos found]
    exact ⟨rfl, rfl⟩

theorem together_delivered (fits : ∀ request ∈ sending,
      fitsAnyAllowedRoute tagger.routes tagger.sizes request.chapters = true)
    (sent : ∀ request ∈ sending, exceedsTpm tagger request.chapters = false)
    (distinct : ((sending.flatMap Request.chapters).map ChapterInput.chapterId).Nodup) :
    Delivered tagger (sending.flatMap Request.chapters) (together tagger sending) := by
  have sent_ : ∀ request ∈ sending, tagBatch tagger request =
      ((tagger.runInference request).answer tagger request, [request]) := by
    intro request listed
    rw [tagBatch_of_fits (fits request listed), sent request listed]
    rfl
  have submitted : (together tagger sending).2 = sending := by
    rw [together_eq]
    calc sending.flatMap (fun request => (tagBatch tagger request).2)
        = sending.flatMap (fun request => [request]) :=
          List.flatMap_congr fun request listed => by rw [sent_ request listed]
      _ = sending := List.flatMap_singleton' sending
  refine ⟨by rw [submitted, List.flatMap_def], by rw [submitted]; exact fits, ?_⟩
  rw [submitted]
  intro results
  have settled : (sending.any fun request => (tagBatch tagger request).1.pending) = false := by
    rw [List.any_eq_false]
    intro request listed
    obtain ⟨tags, model, answered⟩ := results request listed
    rw [sent_ request listed, answered]
    exact Bool.false_ne_true
  rw [together_eq, settled]
  refine ⟨rfl, fun request listed tags model answered chapter among => ?_⟩
  have tagsOf : ∀ other ∈ sending, ∃ tags,
      (tagBatch tagger other).1.chapterTags = chapterSuggestions tagger other tags := by
    intro other member
    obtain ⟨tags, model, answered⟩ := results other member
    exact ⟨tags, by rw [sent_ other member, answered]; rfl⟩
  obtain ⟨before, after, rfl⟩ := List.append_of_mem listed
  have here : (tagBatch tagger request).1.chapterTags = chapterSuggestions tagger request tags := by
    rw [sent_ request listed, answered]
    rfl
  rw [← here]
  dsimp only [Bool.false_eq_true, if_false]
  rw [List.map_append, List.map_cons]
  have nodup : ((tagBatch tagger request).1.chapterTags).keys.Nodup := by
    rw [here]
    exact (chapterSuggestions_own request tags).nodup
  refine foldl_mergeTags nodup fun other member => ?_
  obtain ⟨third, member', rfl⟩ : ∃ third ∈ before ++ after,
      (tagBatch tagger third).1.chapterTags = other := by
    rw [← List.map_append] at member
    exact List.mem_map.mp member
  obtain ⟨tags', same⟩ := tagsOf third (by
    rcases List.mem_append.mp member' with old | new <;> simp [*])
  rw [same]
  refine ⟨(chapterSuggestions_own third tags').nodup, Dict.get?_eq_none_iff.mpr fun shared => ?_⟩
  have own := (chapterSuggestions_own third tags').own chapter.chapterId shared
  have here := List.mem_map_of_mem (f := ChapterInput.chapterId) among
  rw [List.map_flatMap, List.flatMap_append, List.flatMap_cons] at distinct
  obtain ⟨-, later, apart⟩ := List.nodup_append.mp distinct
  rcases List.mem_append.mp member' with old | new
  · exact apart _ (List.mem_flatMap.mpr ⟨third, old, own⟩) _ (List.mem_append_left _ here) rfl
  · exact (List.nodup_append.mp later).2.2 _ here _ (List.mem_flatMap.mpr ⟨third, new, own⟩) rfl

theorem map_chapters_requests (recipeHash : String) (runs : List (List ChapterInput)) :
    (requests tagger recipeHash runs).map Request.chapters = runs := by
  rw [requests]
  apply List.ext_getElem?
  intro index
  simp only [List.getElem?_map, List.getElem?_mapIdx, Option.map_map]
  cases runs[index]? <;> rfl

/-- The chapters can be cut into longest runs, and none of them is above every cap of tokens each
minute. -/
def Sendable (tagger : Tagger) (chapters : List ChapterInput) : Prop :=
  ∃ runs, LongestRuns (fitsAnyAllowedRoute tagger.routes tagger.sizes) chapters runs ∧
    ∀ run ∈ runs, exceedsTpm tagger run = false

theorem LongestRuns.fits
    (cut : LongestRuns (fitsAnyAllowedRoute tagger.routes tagger.sizes) chapters runs) :
    ∀ run ∈ runs, fitsAnyAllowedRoute tagger.routes tagger.sizes run = true := fun run listed =>
  cut.begins run listed run List.prefix_rfl (cut.nonempty run listed)

variable {recipeHash : String}

theorem several_cases
    (cut : LongestRuns (fitsAnyAllowedRoute tagger.routes tagger.sizes) chapters runs)
    (distinct : (chapters.map ChapterInput.chapterId).Nodup) :
    ((together tagger (requests tagger recipeHash runs)).1.Refused ↔
        ¬ ∀ run ∈ runs, exceedsTpm tagger run = false) ∧
      (¬ (together tagger (requests tagger recipeHash runs)).1.Refused →
        Delivered tagger chapters (together tagger (requests tagger recipeHash runs))) := by
  have carried : ∀ request ∈ requests tagger recipeHash runs, request.chapters ∈ runs := by
    intro request listed
    have member := List.mem_map_of_mem (f := Request.chapters) listed
    rwa [map_chapters_requests] at member
  have fits : ∀ request ∈ requests tagger recipeHash runs,
      fitsAnyAllowedRoute tagger.routes tagger.sizes request.chapters = true :=
    fun request listed => LongestRuns.fits cut _ (carried request listed)
  have above : (∃ request ∈ requests tagger recipeHash runs,
        exceedsTpm tagger request.chapters = true) ↔
      ¬ ∀ run ∈ runs, exceedsTpm tagger run = false := by
    constructor
    · rintro ⟨request, listed, above⟩ none_
      rw [none_ _ (carried request listed)] at above
      cases above
    · intro some_
      push Not at some_
      obtain ⟨run, listed, above⟩ := some_
      rw [← map_chapters_requests recipeHash runs] at listed
      obtain ⟨request, member, rfl⟩ := List.mem_map.mp listed
      exact ⟨request, member, by simpa using above⟩
  have refused := together_refused_iff fits
  refine ⟨refused.trans above, fun sent => ?_⟩
  rw [refused] at sent
  have whole : (requests tagger recipeHash runs).flatMap Request.chapters = chapters := by
    rw [List.flatMap_def, map_chapters_requests, cut.together]
  have delivered := together_delivered fits
    (fun request listed => by simpa using fun above => sent ⟨request, listed, above⟩)
    (by rwa [whole])
  rwa [whole] at delivered

theorem llmTagSuggestions_cases {recipeHash : String} {chapters : List ChapterInput}
    (routed : tagger.routes ≠ []) (present : chapters ≠ [])
    (distinct : (chapters.map ChapterInput.chapterId).Nodup) :
    ((llmTagSuggestions tagger recipeHash chapters).1.Refused ↔ ¬ Sendable tagger chapters) ∧
      (¬ (llmTagSuggestions tagger recipeHash chapters).1.Refused →
        Delivered tagger chapters (llmTagSuggestions tagger recipeHash chapters)) := by
  unfold llmTagSuggestions
  rw [if_pos ⟨routed, present⟩]
  cases cut : batches tagger.routes tagger.sizes chapters with
  | none =>
      have unsendable : ¬ Sendable tagger chapters := by
        rintro ⟨runs, whole, -⟩
        rw [batches_eq_some_iff.mpr whole] at cut
        cases cut
      exact ⟨iff_of_true ⟨rfl, rfl⟩ unsendable, fun sent => absurd ⟨rfl, rfl⟩ sent⟩
  | some runs =>
      have whole := batches_eq_some_iff.mp cut
      have sendable : Sendable tagger chapters ↔ ∀ run ∈ runs, exceedsTpm tagger run = false := by
        constructor
        · rintro ⟨others, also, sent⟩
          rwa [whole.unique also]
        · exact fun sent => ⟨runs, whole, sent⟩
      dsimp only
      rw [sendable]
      split
      · exact several_cases whole distinct
      · next few =>
          obtain rfl : runs = [chapters] := by
            have flat := whole.together
            cases runs with
            | nil => exact absurd flat.symm present
            | cons run rest =>
                cases rest with
                | nil => simpa using flat
                | cons _ _ => simp at few
          have fits := LongestRuns.fits whole chapters (by simp)
          have refused : (tagBatch tagger ⟨recipeHash, chapters⟩).1.Refused ↔
              exceedsTpm tagger chapters = true := tagBatch_refused_iff fits
          have above : ¬ (∀ run ∈ [chapters], exceedsTpm tagger run = false) ↔
              exceedsTpm tagger chapters = true := by simp
          refine ⟨refused.trans above.symm, fun sent => ?_⟩
          have below : exceedsTpm tagger chapters = false := by
            rw [refused] at sent
            simpa using sent
          exact @tagBatch_delivered tagger ⟨recipeHash, chapters⟩ fits below

theorem unrouted_sent (unrouted : tagger.routes = []) :
    ¬ (llmTagSuggestions tagger recipeHash chapters).1.Refused := by
  have uncapped : exceedsTpm tagger chapters = false := by
    simp [exceedsTpm, unrouted, cappedTpm]
  unfold llmTagSuggestions tagBatch
  rw [if_neg fun both => both.1 unrouted, if_neg fun both => both.1 unrouted, if_neg (by
    rw [uncapped]; exact Bool.false_ne_true)]
  exact fun refused => not_refused _ _ (tagger.named _) refused.2

/-- Chapters are refused exactly where one is too large alone, and delivered otherwise, if and only
if there is a route and the chapters that cannot be sent are those with one that is too large. -/
theorem llmTagSuggestions_iff (tagger : Tagger) (recipeHash : String) {chapters : List ChapterInput}
    (present : chapters ≠ []) (distinct : (chapters.map ChapterInput.chapterId).Nodup) :
    (((llmTagSuggestions tagger recipeHash chapters).1.Refused ↔
        ∃ chapter ∈ chapters, fitsAnyAllowedRoute tagger.routes tagger.sizes [chapter] = false) ∧
      (¬ (llmTagSuggestions tagger recipeHash chapters).1.Refused →
        Delivered tagger chapters (llmTagSuggestions tagger recipeHash chapters))) ↔
    tagger.routes ≠ [] ∧ (¬ Sendable tagger chapters ↔
      ∃ chapter ∈ chapters, fitsAnyAllowedRoute tagger.routes tagger.sizes [chapter] = false) := by
  by_cases routed : tagger.routes = []
  · refine iff_of_false (fun both => ?_) fun both => both.1 routed
    obtain ⟨chapter, others, rfl⟩ := List.exists_cons_of_ne_nil present
    refine unrouted_sent routed (both.1.mpr ⟨chapter, List.mem_cons_self, ?_⟩)
    simp [fitsAnyAllowedRoute, routed]
  · obtain ⟨refused, delivered⟩ :=
      @llmTagSuggestions_cases tagger recipeHash chapters routed present distinct
    rw [refused] at delivered ⊢
    exact ⟨fun both => ⟨routed, both.1⟩, fun both => ⟨both.2, delivered⟩⟩

/-! ## Routes of one kind -/

def Route.name (route : Route) : String :=
  if route.routeId = "" then route.model else route.routeId

theorem cappedTpm_uncapped (uncapped : ∀ route ∈ routes, route.tpm = none) :
    cappedTpm routes = [] := by
  unfold cappedTpm
  refine List.foldlRecOn (motive := fun capped : Dict String Nat => capped = []) routes _ rfl ?_
  intro capped empty route listed
  rw [uncapped route listed]
  exact empty

theorem cappedTpm_append (earlier : List Route) (last : Route) :
    cappedTpm (earlier ++ [last]) = last.tpm.elim (cappedTpm earlier) fun tpm =>
      Dict.set (cappedTpm earlier) last.name tpm := by
  unfold cappedTpm
  rw [List.foldl_append, List.foldl_cons, List.foldl_nil]
  cases last.tpm <;> rfl

theorem get?_cappedTpm (named : (routes.map Route.name).Nodup)
    {route : Route} (listed : route ∈ routes) {tpm : Nat} (capped : route.tpm = some tpm) :
    (cappedTpm routes).get? route.name = some tpm := by
  induction routes using List.reverseRecOn with
  | nil => cases listed
  | append_singleton earlier last induction =>
      rw [List.map_append] at named
      obtain ⟨before, -, apart⟩ := List.nodup_append.mp named
      rw [cappedTpm_append]
      rcases List.mem_append.mp listed with old | new
      · have different : route.name ≠ last.name :=
          apart _ (List.mem_map_of_mem old) _ (by simp)
        cases last.tpm with
        | none => exact induction before old
        | some other =>
            rw [Option.elim_some, Dict.get?_set_other _ _ different, induction before old]
      · obtain rfl := List.mem_singleton.mp new
        rw [capped, Option.elim_some, Dict.get?_set_same]

/-- Routes that are all capped, or all uncapped. -/
structure Unmixed (routes : List Route) : Prop where
  named : (routes.map Route.name).Nodup
  alike : (∀ route ∈ routes, route.tpm = none) ∨ ∀ route ∈ routes, route.tpm.isSome = true

theorem Unmixed.below (unmixed : Unmixed tagger.routes)
    (fits : fitsAnyAllowedRoute tagger.routes tagger.sizes chapters = true) :
    exceedsTpm tagger chapters = false := by
  unfold exceedsTpm
  rcases unmixed.alike with uncapped | capped
  · simp [cappedTpm_uncapped uncapped]
  · unfold fitsAnyAllowedRoute at fits
    rw [Bool.and_eq_true, List.any_eq_true] at fits
    obtain ⟨-, route, listed, room⟩ := fits
    obtain ⟨tpm, cap⟩ := Option.isSome_iff_exists.mp (capped route listed)
    have among := Dict.get?_eq_some_mem (get?_cappedTpm unmixed.named listed cap)
    simp only [Route.fits, cap, Option.all_some, Bool.and_eq_true, decide_eq_true_eq] at room
    rw [Bool.and_eq_false_iff]
    refine .inr (List.all_eq_false.mpr ⟨tpm, List.mem_map_of_mem (f := Prod.snd) among, ?_⟩)
    simpa using room.2

/-- Chapters that fit alone can be cut into longest runs. -/
theorem batches_isSome
    (alone : ∀ chapter ∈ chapters, fitsAnyAllowedRoute routes sizes [chapter] = true) :
    (batches routes sizes chapters).isSome = true := by
  have placed : ∃ bins, chapters.foldlM (placeChapter routes sizes) Bins.empty = some bins := by
    induction chapters using List.reverseRecOn with
    | nil => exact ⟨Bins.empty, rfl⟩
    | append_singleton earlier last induction =>
        obtain ⟨bins, before⟩ := induction fun chapter listed => alone chapter (by simp [listed])
        have last_ := alone last (by simp)
        rw [List.foldlM_append, before]
        have fits : fitsAnyAllowedRoute routes sizes
            (bins.place (fitsAnyAllowedRoute routes sizes) [last]).filling = true := by
          unfold Bins.place
          split
          · assumption
          · rwa [Bins.flush_filling, List.nil_append]
        refine ⟨bins.place (fitsAnyAllowedRoute routes sizes) [last], ?_⟩
        simp [placeChapter, Bins.placeFitting, fits]
  obtain ⟨bins, found⟩ := placed
  rw [batches, found]
  rfl

/-- With routes of one kind, and chapters that fit alone where they fit with others, those that
cannot be sent are those with one that is too large. -/
theorem sendable_of_unmixed (unmixed : Unmixed tagger.routes) (alone : ∀ run : List ChapterInput,
      fitsAnyAllowedRoute tagger.routes tagger.sizes run = true →
      ∀ chapter ∈ run, fitsAnyAllowedRoute tagger.routes tagger.sizes [chapter] = true)
    (chapters : List ChapterInput) :
    ¬ Sendable tagger chapters ↔
      ∃ chapter ∈ chapters, fitsAnyAllowedRoute tagger.routes tagger.sizes [chapter] = false := by
  constructor
  · intro unsendable
    by_contra fits
    push Not at fits
    obtain ⟨runs, cut⟩ := Option.isSome_iff_exists.mp (batches_isSome fun chapter listed => by
      simpa using fits chapter listed)
    have whole := batches_eq_some_iff.mp cut
    exact unsendable ⟨runs, whole, fun run listed =>
      unmixed.below (LongestRuns.fits whole run listed)⟩
  · rintro ⟨chapter, listed, unfit⟩ ⟨runs, cut, -⟩
    rw [← cut.together] at listed
    obtain ⟨run, among, inside⟩ := List.mem_flatten.mp listed
    rw [alone run (LongestRuns.fits cut run among) chapter inside] at unfit
    cases unfit

end

/-! ## A mixed set of routes -/

def chapterNamed (id : String) : ChapterInput := ⟨id, id, 0, none, "", "Hello.", []⟩

/-- A capped route with a small minute, and an uncapped one with room for a large request. -/
def mixedRoutes : List Route :=
  [⟨"small", "model-a", 200000, 65536, some 20000⟩, ⟨"large", "model-b", 1000000, 65536, none⟩]

theorem handle_named (request : Request) (tags : List Suggestion) :
    (fun _ : Request => Outcome.handle) request ≠ .result tags "payload-too-large" :=
  fun same => by cases same

/-- Each chapter takes so many tokens and bytes. -/
def taggerWith (routes : List Route) (tokens : Nat) : Tagger where
  backendModel := "model-a"
  allowed := ["zoning"]
  documentUrls := []
  routes := routes
  sizes := ⟨fun chapters => tokens * chapters.length, fun chapters => 4 * tokens * chapters.length⟩
  normalize := String.toList
  transcriptRegion _ _ := (none, none)
  batchDigest _ := "digest"
  runInference _ := .handle
  named := handle_named

theorem taggerWith_alone (routes : List Route) (tokens : Nat) (run : List ChapterInput)
    (fits : fitsAnyAllowedRoute routes (taggerWith routes tokens).sizes run = true) :
    ∀ chapter ∈ run, fitsAnyAllowedRoute routes (taggerWith routes tokens).sizes [chapter] = true := by
  intro chapter listed
  have tokens_ : tokens ≤ tokens * run.length :=
    Nat.le_mul_of_pos_right _ (List.length_pos_of_mem listed)
  have bytes : 4 * tokens ≤ 4 * tokens * run.length :=
    Nat.le_mul_of_pos_right _ (List.length_pos_of_mem listed)
  rw [fitsAnyAllowedRoute, Bool.and_eq_true, decide_eq_true_eq, List.any_eq_true] at fits ⊢
  obtain ⟨small, route, among, room⟩ := fits
  have single : 4 * tokens * [chapter].length = 4 * tokens := Nat.mul_one _
  refine ⟨single.le.trans (bytes.trans small), route, among, ?_⟩
  rw [Route.fits, Bool.and_eq_true, Bool.and_eq_true, decide_eq_true_eq, decide_eq_true_eq]
    at room ⊢
  have one : (taggerWith routes tokens).sizes.tokens [chapter] = tokens := Nat.mul_one _
  have all : (taggerWith routes tokens).sizes.tokens run = tokens * run.length := rfl
  rw [one]
  rw [all] at room
  refine ⟨⟨tokens_.trans room.1.1, room.1.2⟩, ?_⟩
  have capped := room.2
  cases cap : route.tpm with
  | none => rfl
  | some tpm =>
      rw [cap, Option.all_some, decide_eq_true_eq] at capped
      rw [Option.all_some, decide_eq_true_eq]
      omega

theorem cappedRoute_unmixed : Unmixed (mixedRoutes.take 1) :=
  ⟨by decide, .inr (by decide)⟩

/-- Two chapters that only fit the capped route one by one. -/
theorem two_chapters_delivered :
    Delivered (taggerWith (mixedRoutes.take 1) 6000) [chapterNamed "a", chapterNamed "b"]
      (llmTagSuggestions (taggerWith (mixedRoutes.take 1) 6000) "recipe"
        [chapterNamed "a", chapterNamed "b"]) :=
  ((llmTagSuggestions_iff (taggerWith (mixedRoutes.take 1) 6000) "recipe" (by simp)
    (by decide)).mpr ⟨by simp [taggerWith, mixedRoutes],
      sendable_of_unmixed cappedRoute_unmixed (taggerWith_alone _ _) _⟩).2
    fun refused => absurd refused.2 (by decide +kernel)

/-- A chapter that the uncapped route has room for is refused. -/
theorem chapter_refused :
    fitsAnyAllowedRoute mixedRoutes (taggerWith mixedRoutes 50000).sizes [chapterNamed "a"] =
        true ∧
      (llmTagSuggestions (taggerWith mixedRoutes 50000) "recipe"
        [chapterNamed "a"]).1.resolvedModel = some "payload-too-large" := by
  decide +kernel

end CityPods.Tagging
