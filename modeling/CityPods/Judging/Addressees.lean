import CityPods.Judging.Passes

/-! # Who is asked

What holds of every item that planning emits: siblings are models of the lane.
-/

namespace CityPods.Judging

open Foundation Ledger

variable {good : Judge → Asked → Prop}

/-! ## Units -/

def Units.All (good : Judge → Asked → Prop) (units : Units) : Prop :=
  ∀ entry ∈ units, entry.2 ≠ [] ∧ ∀ unit ∈ entry.2, unit ≠ [] ∧ ∀ item ∈ unit, good entry.1 item

theorem Units.all_nil : Units.All good [] := fun _ member => absurd member List.not_mem_nil

variable {units : Units}

theorem Units.All.add (all : units.All good) {judge : Judge} {unit : List Asked}
    (nonempty : unit ≠ []) (each : ∀ item ∈ unit, good judge item) :
    (units.add judge unit).All good := by
  intro entry member
  obtain new | old := Dict.mem_set member
  swap
  · exact all entry old
  cases new
  refine ⟨by simp, fun other listed => ?_⟩
  obtain before | last := List.mem_append.mp listed
  · cases found : Dict.get? units judge with
    | none =>
        rw [found] at before
        cases before
    | some known =>
        rw [found] at before
        exact (all _ (Dict.get?_eq_some_mem found)).2 other before
  · cases List.mem_singleton.mp last
    exact ⟨nonempty, each⟩

theorem Units.All.extend {followUp : Units} (all : units.All good)
    (others : followUp.All good) : (units.extend followUp).All good := by
  refine List.foldlRecOn followUp _ all fun mixed kept entry member => ?_
  refine List.foldlRecOn entry.2 _ kept fun mixed kept unit listed => ?_
  obtain ⟨nonempty, each⟩ := (others entry member).2 unit listed
  exact kept.add nonempty each

theorem Units.All.judge (all : units.All good) {judge : Judge}
    {judgeUnits : List (List Asked)} (member : (judge, judgeUnits) ∈ units) :
    ∃ item, good judge item := by
  obtain ⟨nonempty, each⟩ := all _ member
  obtain ⟨unit, listed⟩ := List.exists_mem_of_ne_nil _ nonempty
  obtain ⟨some, good⟩ := each unit listed
  obtain ⟨item, inside⟩ := List.exists_mem_of_ne_nil _ some
  exact ⟨item, good item inside⟩

theorem Units.All.item (all : units.All good) {judge : Judge} {item : Asked}
    (held : units.Holds judge item) : good judge item := by
  obtain ⟨judgeUnits, member, unit, listed, inside⟩ := held
  exact ((all _ member).2 unit listed).2 item inside

/-! ## Meetings -/

structure MeetingPlanning.All (good : Judge → Asked → Prop) (state : MeetingPlanning) : Prop where
  units : state.planning.units.All good
  group : ∀ entry ∈ state.group, entry.2 ≠ [] ∧ ∀ item ∈ entry.2, good entry.1 item

namespace MeetingPlanning

variable {state : MeetingPlanning} {judge : Judge} {item : Asked}

theorem All.askAlone (all : state.All good) (asked : good judge item) :
    (state.askAlone judge item).All good where
  units := all.units.add (List.cons_ne_nil item []) fun _ member =>
    List.mem_singleton.mp member ▸ asked
  group := all.group

theorem All.ask (all : state.All good) (asked : good judge item) : (state.ask judge item).All good where
  units := all.units
  group := by
    intro entry member
    obtain new | old := Dict.mem_set member
    swap
    · exact all.group entry old
    cases new
    refine ⟨by simp, fun other listed => ?_⟩
    obtain before | last := List.mem_append.mp listed
    · cases found : Dict.get? state.group judge with
      | none =>
          rw [found] at before
          cases before
      | some known =>
          rw [found] at before
          exact (all.group _ (Dict.get?_eq_some_mem found)).2 other before
    · exact List.mem_singleton.mp last ▸ asked

theorem All.keep (all : state.All good) (stores : Stores) : (state.keep stores).All good :=
  ⟨all.units, all.group⟩

theorem All.carry (all : state.All good) (loads : Loads) : (state.carry loads).All good :=
  ⟨all.units, all.group⟩

theorem All.finish (all : state.All good) : state.finish.units.All good := by
  refine List.foldlRecOn state.group _ all.units fun units kept entry member => ?_
  obtain ⟨nonempty, each⟩ := all.group entry member
  exact kept.add nonempty each

theorem all_start {planning : Planning} (units : planning.units.All good) :
    MeetingPlanning.All good { planning := planning } where
  units := units
  group := fun _ member => absurd member List.not_mem_nil

end MeetingPlanning

/-! ## Siblings -/

section

variable (ctx : JudgingContext)

def Active (judge : Judge) (_ : Asked) : Prop :=
  judge.1 = .sibling → judge.2 ∈ ctx.sibling.models

variable {ctx}

theorem active_judgesWith {sibling : Option String}
    (active : ∀ model, sibling = some model → model ∈ ctx.sibling.models) {judge : Judge}
    (member : judge ∈ judgesWith ctx sibling) (item : Asked) : Active ctx judge item := by
  obtain anchor | ask := List.mem_cons.mp member
  · rintro isSibling
    rw [anchor] at isSibling
    cases isSibling
  · obtain ⟨model, picked, rfl⟩ := List.mem_map.mp ask
    exact fun _ => active model (Option.mem_toList.mp picked)

variable {state : MeetingPlanning} {spec : TaskSpec} {subject : Subject}

theorem all_planQuestion {judge : Judge} {tier : ContextTier}
    {sample : Sample} {evidence : Evidence} (question : QuestionSpec)
    (asked : ∀ item, good judge item) (all : state.All good) :
    (planQuestion ctx spec subject judge tier sample evidence state question).All good := by
  simp only [planQuestion]
  split
  · split
    · exact all.askAlone (asked _)
    · exact all
  · split
    · exact all.ask (asked _)
    · exact all.askAlone (asked _)

variable {texts : EpisodeTexts}

theorem all_planJudge {judge : Judge} (asked : ∀ item, good judge item) (all : state.All good) :
    (planJudge ctx spec texts subject state judge).All good := by
  refine List.foldlRecOn _ _ all fun state kept due _ => ?_
  unfold planTier
  split
  · exact kept.keep _
  · exact List.foldlRecOn _ _ kept fun state kept question _ => all_planQuestion question asked kept

theorem all_planSubject (subject : Subject) (all : state.All (Active ctx)) :
    (planSubject ctx spec texts state subject).All (Active ctx) := by
  refine List.foldlRecOn _ _ (all.carry _)
    fun state kept judge member => all_planJudge (active_judgesWith ?_ member) kept
  exact fun model picked => siblingCandidates_active (pickSibling_mem picked)

theorem all_planChoose {subjects : List Subject}
    (all : state.All (Active ctx)) : (planChoose ctx spec subjects state).All (Active ctx) := by
  unfold planChoose
  split
  · refine List.foldlRecOn _ _ (all.carry _)
      fun state kept ask member => ?_
    split
    · exact kept
    · obtain ⟨reverse, _, listed⟩ := List.mem_flatMap.mp member
      obtain ⟨judge, judged, rfl⟩ := List.mem_map.mp listed
      exact kept.ask (active_judgesWith
        (fun model picked => chooseSiblingCandidates_active (pickSibling_mem picked)) judged _)
  · exact all

variable {planning : Planning}

theorem all_planEpisode (ep : Episode) (all : planning.units.All (Active ctx)) :
    (planEpisode ctx planning ep).units.All (Active ctx) := by
  simp only [planEpisode]
  split
  · exact all
  split
  · exact all
  · refine List.foldlRecOn (motive := fun planning : Planning => planning.units.All (Active ctx)) _ _ all
      fun planning kept spec _ => ?_
    refine (all_planChoose (List.foldlRecOn _ _ (MeetingPlanning.all_start kept)
      fun state kept subject _ => all_planSubject subject kept)).finish

theorem all_plan (bounded : Option (Option ItemBudget)) {episodes : List Episode}
    (all : planning.units.All (Active ctx)) :
    (plan ctx bounded episodes planning).units.All (Active ctx) := by
  induction episodes generalizing planning with
  | nil => exact all
  | cons ep later induction =>
      unfold plan
      split
      · exact induction (all_planEpisode ep all)
      · split
        · exact all
        split
        · exact all
        · exact induction (all_planEpisode ep all)

end

/-! ## All judges of a pass -/

theorem foldlM_keeps {α β : Type} {motive : β → Prop} {step : β → α → Option β} {items : List α}
    {start last : β} (ran : items.foldlM step start = some last) (held : motive start)
    (kept : ∀ state item next, item ∈ items → motive state → step state item = some next →
      motive next) : motive last := by
  induction items generalizing start with
  | nil =>
      cases ran
      exact held
  | cons item rest induction =>
      rw [List.foldlM_cons] at ran
      obtain ⟨next, stepped, ran⟩ := Option.bind_eq_some_iff.mp ran
      exact induction ran (kept start item next List.mem_cons_self held stepped)
        fun state other next member => kept state other next (List.mem_cons_of_mem _ member)

section

variable {ctx : JudgingContext}

theorem all_addProbes {stores : Stores} {mixed : Units} (all : units.All (Active ctx))
    (added : addProbes ctx stores units = some mixed) : mixed.All (Active ctx) := by
  unfold addProbes at added
  split at added
  · cases added
    exact all
  refine foldlM_keeps added all fun state entry next member kept stepped => ?_
  split at stepped
  · cases stepped
    exact kept
  · obtain ⟨probes, _, rfl⟩ := Option.map_eq_some_iff.mp stepped
    obtain ⟨_, active⟩ := all.judge member
    refine List.foldlRecOn _ _ kept fun mixed kept probe _ => ?_
    exact kept.add (List.cons_ne_nil probe []) fun _ _ => active

end

/-! ## Adjudicators -/

section

variable (ctx : JudgingContext) (lane : LaneConfig) (stores : Stores)

/-- The recorded votes on the item's question disagree. -/
def Contested (spec : TaskSpec) (item : Asked) : Prop :=
  let question := item.question
  let anchor := some ctx.anchor.primaryModel
  match question.kind with
  | .choose =>
      ∃ forward reverse sibling,
        winner ctx.str stores item.first question.id .anchor anchor = some forward ∧
          winner ctx.str stores item.first (question.id ++ "_r") .anchor anchor = some reverse ∧
            winner ctx.str stores item.first question.id .sibling none = some sibling ∧
              (forward ≠ reverse ∨ forward ≠ sibling)
  | _ =>
      contested spec question (byTier stores item.first question.id .anchor anchor)
        (byTier stores item.first question.id .sibling none)
        (byTier stores item.first question.id .audit (some "human")) = true

def Sampled (item : Asked) : Prop :=
  let head :=
    match item.question.kind with
    | .choose => orElse item.first.group item.first.subjectId
    | _ => item.first.subjectId
  inSample s!"{head}:{item.question.id}:calibration" ctx.calibrationSampleRate = true

structure Referred (judge : Judge) (item : Asked) : Prop where
  role : judge.1 = .adjudicator
  chosen : adjudicatorForGroup ctx.families item.subjects
    (siblingModelOf stores item.first item.question.id) lane = some judge.2
  compared : byTier stores item.first item.question.id .sibling none ≠ []
  due : ∃ spec ∈ ctx.tasks, Contested ctx stores spec item ∨ Sampled ctx item

def SameVotes (other : Stores) : Prop := ∀ subject, judgments other subject = judgments stores subject

variable {ctx lane stores} {other : Stores}

theorem SameVotes.markAll (same : SameVotes stores other) (subject : Subject)
    (identity : String) (keys : List String) :
    SameVotes stores (markAll ctx other subject identity keys) := by
  unfold CityPods.Judging.markAll
  split
  · exact same
  · refine List.foldlRecOn keys _ same fun current kept key _ someone => ?_
    rw [judgments_markUnbuildable]
    exact kept someone

theorem SameVotes.byTier (same : SameVotes stores other) (subject : Subject) :
    byTier other subject = byTier stores subject := by
  funext questionId role model
  unfold CityPods.Judging.byTier
  rw [same]

theorem SameVotes.siblingModelOf (same : SameVotes stores other) (subject : Subject) :
    siblingModelOf other subject = siblingModelOf stores subject := by
  funext questionId
  unfold CityPods.Judging.siblingModelOf
  rw [same]

theorem SameVotes.chooseDue (same : SameVotes stores other) (str : PyVal → String)
    (subjects : List Subject) (spec : TaskSpec) (anchorModel : String) (rate : ℚ) :
    chooseDue str other subjects spec anchorModel rate =
      chooseDue str stores subjects spec anchorModel rate := by
  unfold CityPods.Judging.chooseDue winner
  simp only [same.byTier]

variable {spec : TaskSpec} {due : Due} {model : String}

theorem referred_question (votes : SameVotes stores other)
    (known : spec ∈ ctx.tasks) {subject : Subject}
    (listed : due ∈ dueQuestions other subject spec ctx.anchor.primaryModel
      ctx.calibrationSampleRate)
    (chosen : subjectAdjudicator stores ctx.families subject due.question.id lane = some model)
    (tier : ContextTier) (evidence : Evidence) (sample : Sample) :
    Referred ctx lane stores (.adjudicator, model)
      (Asked.single due.question tier evidence subject sample "") := by
  obtain ⟨question, _, found⟩ := List.mem_filterMap.mp listed
  simp only [votes.byTier] at found
  split at found
  · cases found
  next judged =>
  obtain ⟨notChoose, _, sibling⟩ : question.kind ≠ .choose ∧ _ ∧
      byTier stores subject question.id .sibling none ≠ [] := by
    simpa only [not_or] using judged
  split at found
  · cases found
  have same : due.question = question ∧ (contested spec question
      (byTier stores subject question.id .anchor (some ctx.anchor.primaryModel))
      (byTier stores subject question.id .sibling none)
      (byTier stores subject question.id .audit (some "human")) = true ∨
      inSample s!"{subject.subjectId}:{question.id}:calibration" ctx.calibrationSampleRate = true) := by
    split at found
    · next disputed =>
      cases found
      exact ⟨rfl, .inl disputed⟩
    split at found
    · next drawn =>
      cases found
      exact ⟨rfl, .inr drawn⟩
    · cases found
  obtain ⟨rfl, reason⟩ := same
  refine ⟨rfl, ?_, sibling, spec, known, ?_⟩
  · exact (adjudicatorForGroup_single ..).trans chosen
  · unfold Contested Sampled
    simp only [Asked.single]
    exact reason

theorem referred_choice (known : spec ∈ ctx.tasks) {key other : Subject} {others : List Subject}
    (found : chooseDue ctx.str stores (key :: other :: others) spec ctx.anchor.primaryModel
      ctx.calibrationSampleRate = some due)
    (chosen : adjudicatorForGroup ctx.families (key :: other :: others)
      (siblingModelOf stores key due.question.id) lane = some model) (reverse : Bool) :
    Referred ctx lane stores (.adjudicator, model)
      (chooseItem ctx spec due.question key other others reverse due.sample) := by
  simp only [chooseDue] at found
  split at found
  swap
  · cases found
  next question first _ _ search same =>
  cases same
  split at found
  swap
  · cases found
  next forward back sibling forwards backs siblings =>
  have choice : question.kind = .choose := by simpa using List.find?_some search
  have reason : due.question = question ∧ ((forward ≠ back ∨ forward ≠ sibling) ∨
      inSample s!"{orElse key.group key.subjectId}:{question.id}:calibration"
        ctx.calibrationSampleRate = true) := by
    split at found
    · next disputed =>
      cases found
      exact ⟨rfl, .inl disputed⟩
    split at found
    · next drawn =>
      cases found
      exact ⟨rfl, .inr drawn⟩
    · cases found
  obtain ⟨rfl, reason⟩ := reason
  have compared : byTier stores key due.question.id .sibling none ≠ [] := by
    intro none
    unfold winner at siblings
    rw [none] at siblings
    cases siblings
  refine ⟨rfl, chosen, compared, spec, known, ?_⟩
  unfold Contested Sampled
  simp only [chooseItem, choice]
  exact reason.imp_left fun disputed => ⟨forward, back, sibling, forwards, backs, siblings, disputed⟩

/-- Planning that refers what the votes of `stores` make due. -/
structure Refers (ctx : JudgingContext) (lane : LaneConfig) (stores : Stores) (planning : Planning) :
    Prop where
  votes : SameVotes stores planning.stores
  units : planning.units.All (Referred ctx lane stores)

/-- The same within a meeting. -/
structure RefersMeeting (ctx : JudgingContext) (lane : LaneConfig) (stores : Stores)
    (state : MeetingPlanning) : Prop where
  votes : SameVotes stores state.planning.stores
  all : state.All (Referred ctx lane stores)

variable {state : MeetingPlanning}

theorem RefersMeeting.subject (known : spec ∈ ctx.tasks) {texts : EpisodeTexts}
    (refers : RefersMeeting ctx lane stores state)
    (votes : SameVotes stores other) {ask : Subject × Due}
    (listed : ask.2 ∈ dueQuestions other ask.1 spec ctx.anchor.primaryModel
      ctx.calibrationSampleRate) :
    RefersMeeting ctx lane stores (adjudicateSubject ctx lane spec texts state ask) := by
  simp only [adjudicateSubject]
  split
  · exact refers
  next model chosen =>
  rw [subjectAdjudicator, refers.votes.siblingModelOf] at chosen
  split
  · exact ⟨refers.votes.markAll _ _ _, refers.all.keep _⟩
  next tier evidence _ =>
  have referred := referred_question votes known listed chosen tier evidence ask.2.sample
  split
  · exact refers
  split
  · exact ⟨refers.votes, refers.all.ask referred⟩
  · exact ⟨refers.votes, refers.all.askAlone referred⟩

theorem RefersMeeting.meeting (known : spec ∈ ctx.tasks)
    (refers : RefersMeeting ctx lane stores state) {subjects : List Subject} {due : Option Due}
    (found : due = chooseDue ctx.str stores subjects spec ctx.anchor.primaryModel
      ctx.calibrationSampleRate) :
    RefersMeeting ctx lane stores (adjudicateMeeting ctx lane spec subjects due state) := by
  unfold adjudicateMeeting
  split
  swap
  · exact refers
  next due key other others =>
  simp only
  split
  · exact refers
  next model chosen =>
  rw [refers.votes.siblingModelOf] at chosen
  refine List.foldlRecOn _ _ refers fun state kept reverse _ => ?_
  split
  · exact kept
  · exact ⟨kept.votes, kept.all.ask (referred_choice known found.symm chosen reverse)⟩

variable {planning : Planning}

theorem Refers.task (refers : Refers ctx lane stores planning)
    (known : spec ∈ ctx.tasks) (ep : Episode) :
    Refers ctx lane stores (adjudicateTask ctx lane ep planning spec) := by
  simp only [adjudicateTask]
  split
  · exact refers
  split
  · exact ⟨refers.votes, refers.units⟩
  next texts _ =>
  have worked : RefersMeeting ctx lane stores (List.foldl (adjudicateSubject ctx lane spec texts)
      { planning := planning } ((spec.subjects ep).flatMap fun subject =>
        (dueQuestions planning.stores subject spec ctx.anchor.primaryModel
          ctx.calibrationSampleRate).map fun due => (subject, due))) := by
    refine List.foldlRecOn _ _ ⟨refers.votes, MeetingPlanning.all_start refers.units⟩
      fun state kept ask member => ?_
    obtain ⟨subject, _, listed⟩ := List.mem_flatMap.mp member
    obtain ⟨due, due_mem, rfl⟩ := List.mem_map.mp listed
    exact kept.subject known refers.votes due_mem
  have met := worked.meeting known (refers.votes.chooseDue ctx.str (spec.subjects ep) spec _ _)
  exact ⟨met.votes, met.all.finish⟩

theorem Refers.episodes (refers : Refers ctx lane stores planning)
    (bounded : Option (Option Int)) (episodes : List Episode) :
    Refers ctx lane stores (adjudicateEpisodes ctx lane bounded episodes planning) := by
  have tasks : ∀ {planning : Planning} (ep : Episode), Refers ctx lane stores planning →
      Refers ctx lane stores (ctx.tasks.foldl (adjudicateTask ctx lane ep) planning) :=
    fun ep refers => List.foldlRecOn _ _ refers fun planning kept spec known => kept.task known ep
  induction episodes generalizing planning with
  | nil => exact refers
  | cons ep later induction =>
      unfold adjudicateEpisodes
      split
      · exact induction (tasks ep refers)
      simp only
      split
      · exact ⟨refers.votes, refers.units⟩
      split
      · exact ⟨refers.votes, refers.units⟩
      · exact induction (tasks ep ⟨refers.votes, refers.units⟩)

theorem refers_planAdjudication (found : ctx.adjudicator = some lane) (bounded : Option (Option Int))
    (episodes : List Episode) (planning : Planning) :
    Refers ctx lane planning.stores (planAdjudication ctx bounded episodes planning) := by
  unfold planAdjudication
  rw [found]
  have start : Refers ctx lane planning.stores { planning with units := [] } :=
    ⟨fun _ => rfl, Units.all_nil⟩
  exact start.episodes bounded episodes

theorem active_planAdjudication (bounded : Option (Option Int)) (episodes : List Episode)
    (planning : Planning) : (planAdjudication ctx bounded episodes planning).units.All (Active ctx) := by
  cases found : ctx.adjudicator with
  | none =>
      unfold planAdjudication
      rw [found]
      exact Units.all_nil
  | some lane =>
      have refers := (refers_planAdjudication found bounded episodes planning).units
      intro entry member
      obtain ⟨nonempty, each⟩ := refers entry member
      refine ⟨nonempty, fun unit listed => ⟨(each unit listed).1, fun item inside sibling => ?_⟩⟩
      rw [((each unit listed).2 item inside).role] at sibling
      cases sibling

theorem active_planPass {episodes : List Episode} {pass : Pass}
    (planned : (planPass ctx episodes pass).2 = some units) :
    ∀ entry ∈ units, entry.1.1 = .sibling → entry.1.2 ∈ ctx.sibling.models := by
  have all : units.All (Active ctx) :=
    all_addProbes ((all_plan _ Units.all_nil).extend (active_planAdjudication _ _ _)) planned
  intro entry member
  obtain ⟨_, active⟩ := all.judge member
  exact active

end

end CityPods.Judging
