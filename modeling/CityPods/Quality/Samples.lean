import CityPods.Quality.Reviews

/-! # What a change does to a sample

Each change of the ledger, seen from one sample: it stays, it is appended where
no review was, it gets a decision, or a score of its gold text.
-/

namespace CityPods.Quality

open Foundation

/-! ## Appending -/

theorem entries_append (rows others : List Row) (key : RowKey) :
    entries (rows ++ others) key = entries rows key ++ entries others key := by
  simp [entries]

theorem entries_singleton (row : Row) (key : RowKey) :
    entries [row] key = if row.key = key ∧ row.isNamed = true then row.evidence else [] := by
  by_cases mine : row.key = key ∧ row.isNamed = true
  · simp [entries, mine]
  · rw [if_neg mine, entries, List.filter_cons_of_neg (by simpa using mine)]
    rfl

variable {rows : List Row}

theorem sampleAt_append (shaped : Shaped rows) (row : Row) (key : RowKey)
    (id : String) : sampleAt (normalizeRollups (rows ++ [row])) key id =
      ((entries [row] key).filter fun entry => entry.1 = id).foldl chooseSample
        (sampleAt rows key id) := by
  rw [sampleAt_normalize, entries_append, List.filter_append, List.foldl_append, shaped.copies]

theorem sampleAt_append_pending (shaped : Shaped rows) (evaluation : Evaluation)
    (key : RowKey) (id : String) :
    sampleAt (normalizeRollups (rows ++ [evaluation.pendingRow])) key id = sampleAt rows key id ∨
      ((sampleAt rows key id).any isReviewed = false ∧
        sampleAt (normalizeRollups (rows ++ [evaluation.pendingRow])) key id =
          some (.dict evaluation.sample)) := by
  rw [sampleAt_append shaped, entries_singleton]
  split
  · by_cases same : evaluation.sampleId = id
    · have single : (evaluation.pendingRow.evidence.filter fun entry => entry.1 = id) =
          evaluation.pendingRow.evidence := List.filter_cons_of_pos (by simpa using same)
      have fresh : isReviewed (.dict evaluation.sample) = false := rfl
      have chosen : evaluation.pendingRow.evidence.foldl chooseSample (sampleAt rows key id) =
          if (sampleAt rows key id).any isReviewed && !isReviewed (.dict evaluation.sample) then
            sampleAt rows key id
          else some (.dict evaluation.sample) := rfl
      rw [single, chosen, fresh, Bool.not_false, Bool.and_true]
      cases reviewed : (sampleAt rows key id).any isReviewed with
      | true => exact .inl (if_pos rfl)
      | false => exact .inr ⟨rfl, if_neg Bool.false_ne_true⟩
    · have none_ : (evaluation.pendingRow.evidence.filter fun entry => entry.1 = id) = [] :=
        List.filter_cons_of_neg (by simpa using same)
      rw [none_]
      exact .inl rfl
  · exact .inl rfl

/-! ## Deciding -/

def Review.key (review : Review) : RowKey :=
  toLex (review.parsed.sourceKey, review.parsed.bodyKey)

theorem sampleAt_cons (row : Row) (rest : List Row) (key : RowKey) (id : String) :
    sampleAt (row :: rest) key id =
      if row.key = key then row.evidence.get? id else sampleAt rest key id := by
  by_cases same : row.key = key
  · rw [if_pos same, sampleAt, List.find?_cons_of_pos (by simpa using same)]
    rfl
  · rw [if_neg same, sampleAt, List.find?_cons_of_neg (by simpa using same)]
    rfl

section

variable {settings : Settings} {review : Review} {clock : Int} {rows changed : List Row}

theorem applyDecision_ok (applied : applyDecision settings review clock rows = .ok changed) :
    ∃ before row after evidence, rows = before ++ row :: after ∧ row.key = review.key ∧
      row.evidence.get? review.parsed.sampleId = some (.dict evidence) ∧
      changed = before ++ row.setSample review.parsed.sampleId
        (withDecision settings review evidence clock) :: after := by
  induction rows generalizing changed with
  | nil => cases applied
  | cons row rest induction =>
      have later (skipped : (applyDecision settings review clock rest).map (row :: ·) = .ok changed) :
          ∃ before other after evidence, row :: rest = before ++ other :: after ∧
            other.key = review.key ∧
            other.evidence.get? review.parsed.sampleId = some (.dict evidence) ∧
            changed = before ++ other.setSample review.parsed.sampleId
              (withDecision settings review evidence clock) :: after := by
        cases decided : applyDecision settings review clock rest with
        | error error =>
            rw [decided] at skipped
            cases skipped
        | ok tail =>
            rw [decided] at skipped
            cases skipped
            obtain ⟨before, other, after, evidence, rfl, named, found, rfl⟩ := induction decided
            exact ⟨row :: before, other, after, evidence, rfl, named, found, rfl⟩
      rw [applyDecision] at applied
      split at applied
      · exact later applied
      · next matches_ =>
        split at applied
        · next evidence found =>
          cases applied
          refine ⟨[], row, rest, evidence, rfl, ?_, found, rfl⟩
          simp only [Bool.or_eq_true, decide_eq_true_eq, not_or, not_not] at matches_
          rw [Row.key, Review.key, matches_.1, matches_.2]
        · exact later applied

theorem Row.key_setSample (row : Row) (id : String) (sample : Dict String PyVal) :
    (row.setSample id sample).key = row.key := rfl

variable {before after : List Row} {row : Row}

theorem sampleAt_replace {other : Row} (same : other.key = row.key)
    (nodup : ((before ++ row :: after).map Row.key).Nodup) (key : RowKey) (id : String) :
    sampleAt (before ++ other :: after) key id =
      if row.key = key then other.evidence.get? id
      else sampleAt (before ++ row :: after) key id := by
  induction before with
  | nil =>
      rw [List.nil_append, List.nil_append, sampleAt_cons, sampleAt_cons, same]
      by_cases mine : row.key = key
      · rw [if_pos mine, if_pos mine]
      · rw [if_neg mine, if_neg mine, if_neg mine]
  | cons first rest induction =>
      have parts := List.nodup_cons.mp nodup
      rw [List.cons_append, List.cons_append, sampleAt_cons, sampleAt_cons, induction parts.2]
      by_cases mine : row.key = key
      · have different : first.key ≠ key := by
          rintro rfl
          refine parts.1 ?_
          rw [← mine]
          exact List.mem_map_of_mem (List.mem_append_right _ List.mem_cons_self)
        rw [if_neg different, if_pos mine, if_pos mine]
      · rw [if_neg mine, if_neg mine]

theorem sampleAt_middle (nodup : ((before ++ row :: after).map Row.key).Nodup) (id : String) :
    sampleAt (before ++ row :: after) row.key id = row.evidence.get? id := by
  rw [sampleAt_replace rfl nodup, if_pos rfl]

theorem sampleAt_applyDecision (shaped : Shaped rows)
    (applied : applyDecision settings review clock rows = .ok changed) :
    ∃ evidence, sampleAt rows review.key review.parsed.sampleId = some (.dict evidence) ∧
      ∀ key id, sampleAt changed key id =
        if key = review.key ∧ id = review.parsed.sampleId then
          some (.dict (withDecision settings review evidence clock))
        else sampleAt rows key id := by
  obtain ⟨before, row, after, evidence, rfl, named, found, rfl⟩ := applyDecision_ok applied
  refine ⟨evidence, ?_, fun key id => ?_⟩
  · rw [← named, sampleAt_middle shaped.keyed, found]
  · rw [sampleAt_replace (row.key_setSample _ _) shaped.keyed]
    by_cases mine : row.key = key
    · subst mine
      rw [if_pos rfl, Row.setSample, Dict.get?_set, sampleAt_middle shaped.keyed]
      by_cases same : review.parsed.sampleId = id
      · rw [if_pos same, if_pos ⟨named, same.symm⟩]
      · rw [if_neg same, if_neg fun both => same both.2.symm]
    · rw [if_neg mine, if_neg fun both => mine (named.trans both.1.symm)]

end

/-! ## In shape -/

structure Row.Resampled (row other : Row) : Prop where
  source : other.sourceKey = row.sourceKey
  body : other.bodyKey = row.bodyKey
  ids : other.evidence.keys = row.evidence.keys
  samples : (∀ entry ∈ row.evidence, ∃ sample, entry.2 = .dict sample) →
    ∀ entry ∈ other.evidence, ∃ sample, entry.2 = .dict sample

theorem Row.Resampled.refl (row : Row) : row.Resampled row := ⟨rfl, rfl, rfl, id⟩

theorem Row.Resampled.key {row other : Row} (resampled : row.Resampled other) :
    other.key = row.key := by
  rw [Row.key, Row.key, resampled.source, resampled.body]

variable {changed : List Row}

theorem Shaped.resampled (shaped : Shaped rows)
    (paired : List.Forall₂ Row.Resampled rows changed) : Shaped changed := by
  have keys : changed.map Row.key = rows.map Row.key := by
    clear shaped
    induction paired with
    | nil => rfl
    | cons resampled _ induction => rw [List.map_cons, List.map_cons, induction, resampled.key]
  have each (other : Row) (member : other ∈ changed) : ∃ row ∈ rows, row.Resampled other := by
    clear shaped keys
    induction paired with
    | nil => cases member
    | cons resampled _ induction =>
        rcases List.mem_cons.mp member with rfl | later
        · exact ⟨_, List.mem_cons_self, resampled⟩
        · obtain ⟨row, within, resampled⟩ := induction later
          exact ⟨row, List.mem_cons_of_mem _ within, resampled⟩
  refine ⟨keys ▸ shaped.keyed, fun other member => ?_, fun other member => ?_, fun other member => ?_⟩
  · obtain ⟨row, within, resampled⟩ := each other member
    have named := shaped.named row within
    rwa [Row.isNamed, ← resampled.source, ← resampled.body] at named
  · obtain ⟨row, within, resampled⟩ := each other member
    exact resampled.ids ▸ shaped.ids row within
  · obtain ⟨row, within, resampled⟩ := each other member
    exact resampled.samples (shaped.samples row within)

theorem Row.resampled_setSample (row : Row) {id : String} {old : PyVal}
    (found : row.evidence.get? id = some old) (sample : Dict String PyVal) :
    row.Resampled (row.setSample id sample) where
  source := rfl
  body := rfl
  ids := Dict.keys_set_of_get? found _
  samples all entry member := by
    rcases Dict.mem_set member with rfl | earlier
    · exact ⟨sample, rfl⟩
    · exact all entry earlier

theorem shaped_applyDecision {settings : Settings} {review : Review} {clock : Int}
    (shaped : Shaped rows)
    (applied : applyDecision settings review clock rows = .ok changed) : Shaped changed := by
  obtain ⟨before, row, after, evidence, rfl, _, found, rfl⟩ := applyDecision_ok applied
  refine shaped.resampled (List.rel_append ?_ (.cons (row.resampled_setSample found _) ?_))
  · exact List.forall₂_same.mpr fun row _ => .refl row
  · exact List.forall₂_same.mpr fun row _ => .refl row

/-! ## Scoring -/

/-- A sample that is a mapping gets the score. -/
def stampValue (value : PyVal) (update : Update) : PyVal :=
  match value with
  | .dict sample => .dict (stampSample update sample)
  | other => other

theorem get?_stampEvidence (evidence : Dict String PyVal) (scored : String × Update) (id : String) :
    (stampEvidence evidence scored).get? id =
      if scored.1 = id then (evidence.get? id).map fun value => stampValue value scored.2
      else evidence.get? id := by
  rw [stampEvidence]
  by_cases same : scored.1 = id
  · subst same
    rw [if_pos rfl]
    split
    · next sample found =>
      rw [found, Dict.get?_set_same]
      rfl
    · next other =>
      cases found : evidence.get? scored.1 with
      | none => rfl
      | some value =>
          cases value with
          | dict sample => exact absurd found (other sample)
          | _ => rfl
  · rw [if_neg same]
    split
    · exact evidence.get?_set_other _ (Ne.symm same)
    · rfl

theorem resampled_stampEvidence (row : Row) (results : List (String × Update)) :
    row.Resampled { row with evidence := results.foldl stampEvidence row.evidence } := by
  suffices folded : ∀ evidence : Dict String PyVal,
      (results.foldl stampEvidence evidence).keys = evidence.keys ∧
        ((∀ entry ∈ evidence, ∃ sample, entry.2 = .dict sample) →
          ∀ entry ∈ results.foldl stampEvidence evidence, ∃ sample, entry.2 = .dict sample) from
    ⟨rfl, rfl, (folded row.evidence).1, (folded row.evidence).2⟩
  induction results with
  | nil => exact fun evidence => ⟨rfl, id⟩
  | cons scored rest induction =>
      intro evidence
      obtain ⟨keys, samples⟩ := induction (stampEvidence evidence scored)
      rw [List.foldl_cons]
      refine ⟨keys.trans ?_, fun all => samples fun entry member => ?_⟩
      · rw [stampEvidence]
        split
        · next found => exact Dict.keys_set_of_get? found _
        · rfl
      · rw [stampEvidence] at member
        split at member
        · rcases Dict.mem_set member with rfl | earlier
          · exact ⟨_, rfl⟩
          · exact all entry earlier
        · exact all entry member

theorem shaped_applyScores (shaped : Shaped rows)
    (results : Dict String Update) : Shaped (applyScores results rows) := by
  refine shaped.resampled ?_
  rw [applyScores, List.forall₂_map_right_iff]
  exact List.forall₂_same.mpr fun row _ => resampled_stampEvidence row results

theorem sampleAt_applyScores (rows : List Row) (results : Dict String Update) (key : RowKey)
    (id : String) : sampleAt (applyScores results rows) key id =
      (results.filter fun scored => scored.1 = id).foldl
        (fun value scored => value.map fun value => stampValue value scored.2)
        (sampleAt rows key id) := by
  have found : ((applyScores results rows).find? fun row => row.key = key) =
      (rows.find? fun row => row.key = key).map fun row =>
        { row with evidence := results.foldl stampEvidence row.evidence } := by
    rw [applyScores, List.find?_map]
    rfl
  rw [sampleAt, found, sampleAt]
  cases rows.find? fun row => row.key = key with
  | none =>
      induction results.filter fun scored => scored.1 = id with
      | nil => rfl
      | cons scored rest induction => exact induction
  | some row => exact Dict.get?_foldl get?_stampEvidence results row.evidence id

end CityPods.Quality
