import CityPods.Judging.OutstandingLimits

/-! # Packets found waiting

Collecting finds every packet that waits: those of current subjects and of probes while
their markers are collected, those of superseded subjects by a scan of their blocks.
-/

namespace CityPods.Judging

open Foundation Ledger

/-! ## Entries -/

/-- Both stand for one entry of the ledger. -/
def Subject.SameEntry (subject other : Subject) : Prop :=
  subject.store = other.store ∧ subject.subjectId = other.subjectId

instance (subject other : Subject) : Decidable (subject.SameEntry other) :=
  inferInstanceAs (Decidable (_ ∧ _))

variable {subject other : Subject}

theorem Subject.SameEntry.entryOf (same : subject.SameEntry other)
    (stores : Stores) : entryOf stores subject = entryOf stores other := by
  unfold Ledger.entryOf
  rw [same.1, same.2]

theorem Subject.SameEntry.pending (same : subject.SameEntry other)
    (stores : Stores) : pending stores subject = pending stores other := by
  unfold Ledger.pending
  rw [same.entryOf]

variable {stores : Stores}

theorem entryOf_appendRows (different : ¬ subject.SameEntry other)
    {rows : List (Subject × Row)} (about : ∀ row ∈ rows, row.1 = subject) :
    entryOf (appendRows stores rows) other = entryOf stores other := by
  refine List.foldlRecOn (motive := fun current => entryOf current other = entryOf stores other) rows _
    rfl fun current kept row member => ?_
  unfold appendJudgment
  split
  · exact kept
  · rw [entryOf_change, if_neg (about row member ▸ different)]
    exact kept

theorem pending_appendRows (stores : Stores) (rows : List (Subject × Row)) (other : Subject) :
    pending (appendRows stores rows) other = pending stores other := by
  refine List.foldlRecOn (motive := fun current => pending current other = pending stores other) rows _
    rfl fun current kept row _ => ?_
  rw [← kept]
  unfold appendJudgment
  split
  · rfl
  · unfold Ledger.pending
    rw [entryOf_change]
    split
    · next same =>
      rw [← Subject.SameEntry.entryOf same]
      cases Ledger.entryOf current row.1 <;> rfl
    · rfl

theorem entryOf_dropPending (different : ¬ subject.SameEntry other) (marker : Marker) :
    entryOf (dropPending stores subject marker) other = entryOf stores other := by
  unfold dropPending
  split
  · rfl
  · exact (entryOf_change ..).trans (if_neg different)

theorem mem_pending_dropPending {marker kept : Marker}
    (listed : kept ∈ pending (dropPending stores subject marker) other) :
    kept ∈ pending stores other := by
  unfold dropPending at listed
  split at listed
  · exact listed
  · unfold Ledger.pending at listed ⊢
    rw [entryOf_change] at listed
    split at listed
    · next same =>
      rw [← Subject.SameEntry.entryOf same]
      cases found : Ledger.entryOf stores subject with
      | none => simp [found] at listed
      | some entry =>
          rw [found] at listed
          exact (List.mem_filter.mp listed).1
    · exact listed

/-- The dictionaries of the blocks name no subject twice. -/
def DistinctSubjects (stores : Stores) : Prop := ∀ store, (stores store).keys.Nodup

theorem DistinctSubjects.change (distinct : DistinctSubjects stores)
    (subject : Subject) (edit : Entry → Entry) : DistinctSubjects (change stores subject edit) := by
  intro store
  unfold Ledger.change
  by_cases same : store = subject.store
  · rw [same, Function.update_self]
    exact Dict.nodup_keys_set (distinct subject.store) _ _
  · rw [Function.update_of_ne same]
    exact distinct store

theorem DistinctSubjects.appendRows (distinct : DistinctSubjects stores)
    (rows : List (Subject × Row)) : DistinctSubjects (appendRows stores rows) := by
  refine List.foldlRecOn rows _ distinct fun current kept row _ => ?_
  unfold appendJudgment
  split
  · exact kept
  · exact DistinctSubjects.change kept row.1 fun entry =>
      { entry with judgments := entry.judgments ++ [row.2] }

theorem DistinctSubjects.dropPending (distinct : DistinctSubjects stores)
    (subject : Subject) (marker : Marker) : DistinctSubjects (dropPending stores subject marker) := by
  unfold Ledger.dropPending
  split
  · exact distinct
  · exact distinct.change _ _

/-! ## Markers -/

section

variable {ctx : JudgingContext} {subject : Subject} {pass : Pass}

def Event.ofMarker (marker : Marker) : Event :=
  .found marker.purpose marker.key.judgeModel marker.recipeHash

variable {marker : Marker}

theorem answerRows_about {role : JudgeRole} {model : String} {answers : Dict String Answer}
    {question : QuestionSpec} :
    ∀ row ∈ answerRows role model answers (markedItem subject marker question), row.1 = subject := by
  intro row member
  unfold answerRows at member
  split at member
  · cases member
  split at member
  · cases member
  · obtain ⟨other, listed, rfl⟩ := List.mem_map.mp member
    exact List.mem_singleton.mp listed

structure Collects (subject : Subject) (before after : Stores) : Prop where
  others : ∀ other, ¬ subject.SameEntry other → entryOf after other = entryOf before other
  markers : ∀ other marker, marker ∈ pending after other → marker ∈ pending before other
  distinct : DistinctSubjects before → DistinctSubjects after

theorem Collects.refl (subject : Subject) (stores : Stores) : Collects subject stores stores :=
  ⟨fun _ _ => rfl, fun _ _ => id, id⟩

theorem Collects.trans {first second third : Stores} (before : Collects subject first second)
    (after : Collects subject second third) : Collects subject first third where
  others := fun other different => (after.others other different).trans (before.others other different)
  markers := fun other marker member => before.markers other marker (after.markers other marker member)
  distinct := fun distinct => after.distinct (before.distinct distinct)

theorem collects_dropPending (stores : Stores) (marker : Marker) :
    Collects subject stores (dropPending stores subject marker) where
  others := fun _ different => entryOf_dropPending different marker
  markers := fun _ _ => mem_pending_dropPending
  distinct := fun distinct => distinct.dropPending subject marker

theorem collects_appendRows (stores : Stores) {rows : List (Subject × Row)}
    (about : ∀ row ∈ rows, row.1 = subject) : Collects subject stores (appendRows stores rows) where
  others := fun _ different => entryOf_appendRows different about
  markers := fun other marker member => by rwa [pending_appendRows] at member
  distinct := fun distinct => distinct.appendRows rows

theorem collectMarker_stores (marker : Marker) :
    Collects subject pass.stores (collectMarker ctx subject pass marker).stores := by
  unfold collectMarker
  split
  · exact .refl ..
  split
  · exact .refl ..
  · exact .refl ..
  · exact collects_dropPending _ _
  · unfold collectReply
    split
    · exact .refl ..
    simp only
    split
    · exact (collects_dropPending _ _).trans (collects_appendRows _ answerRows_about)
    split
    · exact .refl ..
    · refine (collects_dropPending _ _).trans (collects_appendRows _ fun row member => ?_)
      obtain ⟨original, listed, rfl⟩ := List.mem_map.mp member
      exact answerRows_about original listed

theorem collectMarker_raised (marker : Marker)
    (through : (collectMarker ctx subject pass marker).raised = false) : pass.raised = false := by
  cases raised : pass.raised with
  | false => rfl
  | true =>
      unfold collectMarker at through
      rw [if_pos raised, raised] at through
      cases through

theorem collectMarker_log (marker : Marker)
    (through : (collectMarker ctx subject pass marker).raised = false) :
    (collectMarker ctx subject pass marker).log =
      pass.log ++ ([marker].filter fun marker => waits ctx marker.recipeHash).map Event.ofMarker := by
  have running := collectMarker_raised marker through
  unfold collectMarker waits
  rw [if_neg (by simp [running])]
  split
  · next found => simp [found, Pass.log_find, Event.ofMarker]
  · next found => simp [found, Pass.log_find, Event.ofMarker]
  · next found => simp [found]
  · next answers found => simp [found, (collectReply_keeps subject pass marker answers).1]

/-! ## Subjects -/

theorem collectMarkers {markers : List Marker}
    (through : (markers.foldl (collectMarker ctx subject) pass).raised = false) :
    pass.raised = false ∧
      Collects subject pass.stores (markers.foldl (collectMarker ctx subject) pass).stores ∧
      (markers.foldl (collectMarker ctx subject) pass).log =
        pass.log ++ (markers.filter fun marker => waits ctx marker.recipeHash).map Event.ofMarker := by
  induction markers generalizing pass with
  | nil => exact ⟨through, .refl .., (List.append_nil _).symm⟩
  | cons marker rest induction =>
      obtain ⟨running, stores, log⟩ := induction through
      refine ⟨collectMarker_raised marker running, (collectMarker_stores marker).trans stores, ?_⟩
      rw [List.foldl_cons, log, collectMarker_log marker running, List.append_assoc, ← List.map_append,
        ← List.filter_append]
      rfl

def Logged (ctx : JudgingContext) (stores : Stores) (log : List Event) (subject : Subject) : Prop :=
  ∀ marker ∈ pending stores subject, waits ctx marker.recipeHash = true → Event.ofMarker marker ∈ log

/-- What collecting has done after some of the subjects. -/
structure Visited (ctx : JudgingContext) (stores : Stores) (all done : List Subject) (pass : Pass) :
    Prop where
  markers : ∀ subject, ∀ marker ∈ pending pass.stores subject, marker ∈ pending stores subject
  sound : ∀ event ∈ pass.log, ∃ subject ∈ all, ∃ marker ∈ pending stores subject,
    waits ctx marker.recipeHash = true ∧ event = Event.ofMarker marker
  fresh : ∀ subject, entryOf pass.stores subject = entryOf stores subject ∨
    Logged ctx stores pass.log subject
  logged : ∀ subject ∈ done, Logged ctx stores pass.log subject
  others : ∀ subject, (∀ other ∈ all, ¬ other.SameEntry subject) →
    entryOf pass.stores subject = entryOf stores subject
  distinct : DistinctSubjects pass.stores

variable {stores : Stores}

theorem Visited.step {all done : List Subject}
    (visited : Visited ctx stores all done pass) (member : subject ∈ all)
    (through : (collectSubject ctx pass subject).raised = false) :
    Visited ctx stores all (done ++ [subject]) (collectSubject ctx pass subject) := by
  obtain ⟨_, collects, log⟩ := collectMarkers through
  have grown : ∀ event ∈ pass.log, event ∈ (collectSubject ctx pass subject).log := by
    intro event logged
    unfold collectSubject
    rw [log]
    exact List.mem_append_left _ logged
  have keeps : ∀ other, Logged ctx stores pass.log other →
      Logged ctx stores (collectSubject ctx pass subject).log other :=
    fun other logged marker listed waiting => grown _ (logged marker listed waiting)
  have here : Logged ctx stores (collectSubject ctx pass subject).log subject := by
    obtain same | logged := visited.fresh subject
    · intro marker listed waiting
      unfold collectSubject
      rw [log]
      refine List.mem_append_right _ (List.mem_map_of_mem (List.mem_filter.mpr ⟨?_, waiting⟩))
      unfold Ledger.pending at listed ⊢
      rwa [same]
    · exact keeps subject logged
  exact
    { markers := fun other marker listed =>
        visited.markers other marker (collects.markers other marker listed)
      sound := by
        intro event logged
        unfold collectSubject at logged
        rw [log] at logged
        obtain before | new := List.mem_append.mp logged
        · exact visited.sound event before
        · obtain ⟨marker, waiting, rfl⟩ := List.mem_map.mp new
          obtain ⟨listed, waiting⟩ := List.mem_filter.mp waiting
          exact ⟨subject, member, marker, visited.markers subject marker listed, waiting, rfl⟩
      fresh := by
        intro other
        by_cases same : subject.SameEntry other
        · refine .inr fun marker listed => here marker ?_
          rwa [same.pending]
        · exact (visited.fresh other).imp (collects.others other same).trans (keeps other)
      logged := by
        intro other listed
        obtain before | last := List.mem_append.mp listed
        · exact keeps other (visited.logged other before)
        · exact List.mem_singleton.mp last ▸ here
      others := fun other apart =>
        (collects.others other (apart subject member)).trans (visited.others other apart)
      distinct := collects.distinct visited.distinct }

theorem Visited.steps {all done later : List Subject}
    (visited : Visited ctx stores all done pass) (within : ∀ subject ∈ later, subject ∈ all)
    (through : (later.foldl (collectSubject ctx) pass).raised = false) :
    Visited ctx stores all (done ++ later) (later.foldl (collectSubject ctx) pass) := by
  have running : ∀ {later : List Subject} {pass : Pass},
      (later.foldl (collectSubject ctx) pass).raised = false → pass.raised = false := by
    intro later
    induction later with
    | nil => exact id
    | cons subject rest induction => exact fun through => (collectMarkers (induction through)).1
  induction later generalizing pass done with
  | nil => rwa [List.append_nil]
  | cons subject rest induction =>
      have first := visited.step (within subject List.mem_cons_self) (running through)
      have rest := induction first (fun other member => within other (List.mem_cons_of_mem _ member))
        through
      rwa [List.append_assoc] at rest

/-! ## Blocks -/

variable {subjects : List Subject}

theorem mem_blocksOf {block : Nat × String}
    (member : block ∈ blocksOf subjects) : ∃ subject ∈ subjects, subject.store = block.1 := by
  have named := Dict.get?_isSome_iff_mem_keys.mpr (List.mem_map_of_mem (f := Prod.fst) member)
  unfold blocksOf at named
  rw [Dict.get?_foldl_set, Dict.get?_nil, Option.or_none, Option.isSome_map,
    List.getLast?_isSome] at named
  obtain ⟨subject, listed⟩ := List.exists_mem_of_ne_nil _ named
  obtain ⟨listed, same⟩ := List.mem_filter.mp listed
  exact ⟨subject, listed, of_decide_eq_true same⟩

theorem exists_blocksOf (member : subject ∈ subjects) :
    ∃ block ∈ blocksOf subjects, block.1 = subject.store := by
  have named : (Dict.get? (blocksOf subjects) subject.store).isSome := by
    unfold blocksOf
    rw [Dict.get?_foldl_set, Dict.get?_nil, Option.or_none, Option.isSome_map, List.getLast?_isSome]
    exact List.ne_nil_of_mem (List.mem_filter.mpr ⟨member, decide_eq_true rfl⟩)
  obtain ⟨uid, found⟩ := Option.isSome_iff_exists.mp named
  exact ⟨_, Dict.get?_eq_some_mem found, rfl⟩

/-- A marker that collecting looks at. -/
inductive Scanned (stores : Stores) (subjects : List Subject) (marker : Marker) : Prop
  | current {subject : Subject} (member : subject ∈ subjects)
      (listed : marker ∈ pending stores subject)
  | probe {subject : Subject} {subjectId : String} {entry : Entry} (member : subject ∈ subjects)
      (found : (stores subject.store).get? subjectId = some entry)
      (probes : isProbeSubject subjectId = true) (listed : marker ∈ entry.pending)
  | superseded {subject : Subject} {subjectId : String} {entry : Entry} (member : subject ∈ subjects)
      (found : (stores subject.store).get? subjectId = some entry)
      (old : subjectId ∉ subjects.map Subject.subjectId)
      (other : isProbeSubject subjectId = false) (listed : marker ∈ entry.pending)

theorem mem_supersededMarkers (distinct : DistinctSubjects stores) :
    marker ∈ supersededMarkers stores subjects ↔ ∃ subject ∈ subjects, ∃ subjectId entry,
      (stores subject.store).get? subjectId = some entry ∧
        subjectId ∉ subjects.map Subject.subjectId ∧ isProbeSubject subjectId = false ∧
          marker ∈ entry.pending := by
  constructor
  · intro member
    obtain ⟨block, blocks, member⟩ := List.mem_flatMap.mp member
    obtain ⟨entry, listed, member⟩ := List.mem_flatMap.mp member
    obtain ⟨listed, old⟩ := List.mem_filter.mp listed
    obtain ⟨old, other⟩ := (Bool.and_eq_true _ _).mp old
    obtain ⟨subject, here, same⟩ := mem_blocksOf blocks
    exact ⟨subject, here, entry.1, entry.2, Dict.get?_of_mem (distinct _) (same ▸ listed),
      of_decide_eq_true old, (Bool.not_eq_true' _).mp other, member⟩
  · rintro ⟨subject, here, subjectId, entry, found, old, other, member⟩
    obtain ⟨block, blocks, same⟩ := exists_blocksOf here
    refine List.mem_flatMap.mpr ⟨block, blocks, List.mem_flatMap.mpr ⟨(subjectId, entry), ?_, member⟩⟩
    refine List.mem_filter.mpr ⟨same ▸ Dict.get?_eq_some_mem found, ?_⟩
    exact (Bool.and_eq_true _ _).mpr ⟨decide_eq_true old, (Bool.not_eq_true' _).mpr other⟩

theorem mem_probeSubjects (distinct : DistinctSubjects stores)
    {probe : Subject} (member : probe ∈ probeSubjects stores subjects) :
    isProbeSubject probe.subjectId = true ∧ ∃ subject ∈ subjects, ∃ entry,
      (stores subject.store).get? probe.subjectId = some entry ∧
        pending stores probe = entry.pending := by
  obtain ⟨block, blocks, member⟩ := List.mem_flatMap.mp member
  obtain ⟨entry, listed, rfl⟩ := List.mem_map.mp member
  obtain ⟨listed, probes⟩ := List.mem_filter.mp listed
  obtain ⟨subject, here, same⟩ := mem_blocksOf blocks
  have found := Dict.get?_of_mem (distinct block.1) listed
  refine ⟨((Bool.and_eq_true _ _).mp probes).1, subject, here, entry.2, same ▸ found, ?_⟩
  unfold Ledger.pending Ledger.entryOf
  rw [found]
  rfl

theorem exists_probeSubjects (member : subject ∈ subjects) {subjectId : String} {entry : Entry}
    (found : (stores subject.store).get? subjectId = some entry)
    (probes : isProbeSubject subjectId = true) (listed : marker ∈ entry.pending) :
    ∃ probe ∈ probeSubjects stores subjects, marker ∈ pending stores probe := by
  obtain ⟨block, blocks, same⟩ := exists_blocksOf member
  refine ⟨_, List.mem_flatMap.mpr ⟨block, blocks, List.mem_map_of_mem (List.mem_filter.mpr
    ⟨same ▸ Dict.get?_eq_some_mem found, ?_⟩)⟩, ?_⟩
  · exact (Bool.and_eq_true _ _).mpr ⟨probes, by simpa using List.ne_nil_of_mem listed⟩
  · unfold Ledger.pending Ledger.entryOf
    rw [same, found]
    exact listed

/-! ## Collecting -/

theorem countSuperseded_log (subjects : List Subject) (running : pass.raised = false) :
    (countSuperseded ctx pass subjects).log = pass.log ++
      ((supersededMarkers pass.stores subjects).filter fun marker =>
        waits ctx marker.recipeHash).map Event.ofMarker := by
  unfold countSuperseded
  rw [if_neg (by simp [running])]
  generalize supersededMarkers pass.stores subjects = markers
  clear running
  induction markers generalizing pass with
  | nil => exact (List.append_nil _).symm
  | cons marker rest induction =>
      rw [List.foldl_cons, induction, List.filter_cons]
      split
      · rw [pass.log_find, List.append_assoc]
        rfl
      · rfl

theorem countSuperseded_raised (subjects : List Subject) :
    (countSuperseded ctx pass subjects).raised = pass.raised := by
  unfold countSuperseded
  split
  · rfl
  · refine List.foldlRecOn (motive := fun after : Pass => after.raised = pass.raised) _ _ rfl
      fun after kept marker _ => ?_
    split
    · exact kept
    · exact kept

variable {runCaps : Dict String Int}

theorem mem_collect_log (distinct : DistinctSubjects stores)
    (through : (collect ctx { stores := stores, runCaps := runCaps } subjects).raised = false)
    {event : Event} :
    event ∈ (collect ctx { stores := stores, runCaps := runCaps } subjects).log ↔
      ∃ marker, Scanned stores subjects marker ∧ waits ctx marker.recipeHash = true ∧
        event = Event.ofMarker marker := by
  unfold collect at through ⊢
  rw [countSuperseded_raised] at through
  rw [countSuperseded_log _ through]
  have start : Visited ctx stores (subjects ++ probeSubjects stores subjects) []
      { stores := stores, runCaps := runCaps } :=
    { markers := fun _ _ => id
      sound := fun _ member => absurd member List.not_mem_nil
      fresh := fun _ => .inl rfl
      logged := fun _ member => absurd member List.not_mem_nil
      others := fun _ _ => rfl
      distinct := distinct }
  have visited := start.steps (fun _ => id) through
  simp only [List.nil_append] at visited
  have untouched : ∀ subject ∈ subjects, ∀ subjectId, subjectId ∉ subjects.map Subject.subjectId →
      isProbeSubject subjectId = false →
        (((subjects ++ probeSubjects stores subjects).foldl (collectSubject ctx)
          { stores := stores, runCaps := runCaps }).stores subject.store).get? subjectId =
            (stores subject.store).get? subjectId := by
    intro subject _ subjectId old other
    refine visited.others { subject with subjectId := subjectId } fun visitor member same => ?_
    obtain current | probe := List.mem_append.mp member
    · have named : visitor.subjectId = subjectId := same.2
      exact old (named ▸ List.mem_map_of_mem current)
    · have probes := (mem_probeSubjects distinct probe).1
      have named : visitor.subjectId = subjectId := same.2
      rw [named, other] at probes
      cases probes
  rw [List.mem_append]
  constructor
  · rintro (logged | scanned)
    · obtain ⟨subject, member, marker, listed, waiting, rfl⟩ := visited.sound event logged
      obtain current | probe := List.mem_append.mp member
      · exact ⟨marker, .current current listed, waiting, rfl⟩
      · obtain ⟨probes, host, here, entry, found, same⟩ := mem_probeSubjects distinct probe
        exact ⟨marker, .probe here found probes (same ▸ listed), waiting, rfl⟩
    · obtain ⟨marker, listed, rfl⟩ := List.mem_map.mp scanned
      obtain ⟨listed, waiting⟩ := List.mem_filter.mp listed
      obtain ⟨subject, here, subjectId, entry, found, old, other, listed⟩ :=
        (mem_supersededMarkers visited.distinct).mp listed
      rw [untouched subject here subjectId old other] at found
      exact ⟨marker, .superseded here found old other listed, waiting, rfl⟩
  · rintro ⟨marker, scanned, waiting, rfl⟩
    cases scanned with
    | current member listed =>
        exact .inl (visited.logged _ (List.mem_append_left _ member) marker listed waiting)
    | probe member found probes listed =>
        obtain ⟨probe, asked, listed⟩ := exists_probeSubjects member found probes listed
        exact .inl (visited.logged probe (List.mem_append_right _ asked) marker listed waiting)
    | superseded member found old other listed =>
        rw [← untouched _ member _ old other] at found
        exact .inr (List.mem_map_of_mem (List.mem_filter.mpr
          ⟨(mem_supersededMarkers visited.distinct).mpr ⟨_, member, _, _, found, old, other, listed⟩,
            waiting⟩))

theorem mem_foundIn {counted : Counted} (distinct : DistinctSubjects stores)
    (through : (collect ctx { stores := stores, runCaps := runCaps } subjects).raised = false)
    {recipe : String} :
    recipe ∈ foundIn counted (collect ctx { stores := stores, runCaps := runCaps } subjects).log ↔
      ∃ marker, Scanned stores subjects marker ∧ waits ctx marker.recipeHash = true ∧
        counted marker.purpose marker.key.judgeModel = true ∧ marker.recipeHash = recipe := by
  unfold foundIn
  rw [List.mem_toFinset, List.mem_filterMap]
  constructor
  · rintro ⟨event, logged, found⟩
    obtain ⟨marker, scanned, waiting, rfl⟩ := (mem_collect_log distinct through).mp logged
    obtain ⟨counts, same⟩ := Option.ite_none_right_eq_some.mp found
    exact ⟨marker, scanned, waiting, counts, Option.some.inj same⟩
  · rintro ⟨marker, scanned, waiting, counts, rfl⟩
    exact ⟨_, (mem_collect_log distinct through).mpr ⟨marker, scanned, waiting, rfl⟩,
      Option.ite_none_right_eq_some.mpr ⟨counts, rfl⟩⟩

end

/-- Whatever a pass finds, plans and submits, and wherever it stops, its packets respect the
limits beside the packets found; these are the recipes of the waiting markers of current
subjects, of probes and of superseded subjects. -/
theorem pass_respects_limits (ctx : JudgingContext) (episodes : List Episode) (stores : Stores)
    (runCaps : Dict String Int) :
    RespectsLimits ctx runCaps (run ctx episodes stores runCaps) ∧
      (DistinctSubjects stores →
        (collect ctx { stores := stores, runCaps := runCaps }
          ((recentFirst episodes).flatMap (subjectsOf ctx))).raised = false →
          ∀ counted recipe, recipe ∈ foundIn counted (run ctx episodes stores runCaps).log ↔
            ∃ marker, Scanned stores ((recentFirst episodes).flatMap (subjectsOf ctx)) marker ∧
              waits ctx marker.recipeHash = true ∧
                counted marker.purpose marker.key.judgeModel = true ∧ marker.recipeHash = recipe) := by
  obtain ⟨respects, found⟩ := run_respects ctx episodes stores runCaps
  refine ⟨respects, fun distinct through counted recipe => ?_⟩
  rw [found]
  exact mem_foundIn distinct through

end CityPods.Judging
