import Mathlib.Data.Prod.Lex
import Mathlib.Data.String.Basic
import CityPods.Foundation.PyVal

/-! # Quality rollups

One row for each source and body, with the evidence of its samples; rows are
merged by key and samples by id.
-/

namespace CityPods.Quality

open Foundation

/-! ## Rows -/

/-- What a row says of its evidence. -/
structure Summary where
  reviewed : Nat
  pending : Nat
  primaryCounts : Dict String Nat
  timingCounts : Dict String Nat
  deriving DecidableEq

/-- A row; an empty text is a missing one. -/
structure Row where
  sourceKey : String
  bodyKey : String
  bodyName : String
  acceptedRecipePolicy : Dict String PyVal
  evidence : Dict String PyVal
  summary : Option Summary := none

abbrev RowKey : Type := String ×ₗ String

def Row.key (row : Row) : RowKey := toLex (row.sourceKey, row.bodyKey)

/-- `item.get(name)` -/
def field (item : Dict String PyVal) (name : String) : PyVal := (item.get? name).getD .none

/-! ## Summaries -/

def countOne (counts : Dict String Nat) (value : PyVal) : Dict String Nat :=
  match value with
  | .str name =>
      match counts.get? name with
      | some count => counts.set name (count + 1)
      | none => counts
  | _ => counts

def primaryOutcomes : List String := ["a_better", "b_better", "both_correct", "neither"]

def timingFlags : List String := ["timing_a_bad", "timing_b_bad"]

def noCounts (names : List String) : Dict String Nat := names.map fun name => (name, 0)

def isPrimary (decision : PyVal) : Bool := decision.asStr?.any (· ∈ primaryOutcomes)

/-- `item.get("timing_flags") or []` -/
def flagsOf (item : Dict String PyVal) : List PyVal := (field item "timing_flags").asList?.getD []

def addSample (summary : Summary) (sample : PyVal) : Summary :=
  let item := sample.asDict?.getD []
  let decision := field item "manual_decision"
  { reviewed := summary.reviewed + if isPrimary decision then 1 else 0
    pending := summary.pending + if isPrimary decision then 0 else 1
    primaryCounts := countOne summary.primaryCounts decision
    timingCounts := (flagsOf item).foldl countOne summary.timingCounts }

def summarizeEvidence (evidence : Dict String PyVal) : Summary :=
  evidence.values.foldl addSample ⟨0, 0, noCounts primaryOutcomes, noCounts timingFlags⟩

/-! ## Merging -/

def isReviewed : PyVal → Bool
  | .dict sample => (field sample "manual_decision").truthy
  | _ => false

def mergeSample (evidence : Dict String PyVal) (entry : String × PyVal) : Dict String PyVal :=
  match entry.2 with
  | .dict sample =>
      if (evidence.get? entry.1).any isReviewed && !isReviewed (.dict sample) then evidence
      else evidence.set entry.1 (.dict sample)
  | _ => evidence

def emptyRow (row : Row) : Row where
  sourceKey := row.sourceKey
  bodyKey := row.bodyKey
  bodyName := if row.bodyName = "" then row.bodyKey else row.bodyName
  acceptedRecipePolicy := row.acceptedRecipePolicy
  evidence := []

def Row.absorb (current row : Row) : Row :=
  { current with
    evidence := row.evidence.foldl mergeSample current.evidence
    acceptedRecipePolicy := current.acceptedRecipePolicy.update row.acceptedRecipePolicy
    bodyName := if row.bodyName = "" then current.bodyName else row.bodyName }

def Row.isNamed (row : Row) : Bool := row.sourceKey ≠ "" && row.bodyKey ≠ ""

def mergeRow (merged : Dict RowKey Row) (row : Row) : Dict RowKey Row :=
  if row.isNamed then
    merged.set row.key (((merged.get? row.key).getD (emptyRow row)).absorb row)
  else merged

/-- The samples in order, and what they sum up to. -/
def Row.finish (row : Row) : Row :=
  { row with
    evidence := row.evidence.sortKeys
    summary := some (summarizeEvidence row.evidence.sortKeys) }

def normalizeRollups (rows : List Row) : List Row :=
  ((rows.foldl mergeRow []).sortKeys).values.map Row.finish

/-! ## What a merge keeps -/

def sampleAt (rows : List Row) (key : RowKey) (id : String) : Option PyVal :=
  (rows.find? fun row => row.key = key).bind fun row => row.evidence.get? id

/-- Which of two copies of a sample stays. -/
def chooseSample (existing : Option PyVal) (entry : String × PyVal) : Option PyVal :=
  match entry.2 with
  | .dict sample =>
      if existing.any isReviewed && !isReviewed (.dict sample) then existing
      else some (.dict sample)
  | _ => existing

theorem get?_mergeSample (evidence : Dict String PyVal) (entry : String × PyVal) (id : String) :
    (mergeSample evidence entry).get? id =
      if entry.1 = id then chooseSample (evidence.get? id) entry else evidence.get? id := by
  obtain ⟨name, value⟩ := entry
  by_cases same : name = id
  · subst same
    rw [if_pos rfl]
    cases value with
    | dict sample =>
        simp only [mergeSample, chooseSample]
        split
        · rfl
        · exact evidence.get?_set_same _ _
    | _ => rfl
  · rw [if_neg same]
    cases value with
    | dict sample =>
        simp only [mergeSample]
        split
        · rfl
        · exact evidence.get?_set_other _ (Ne.symm same)
    | _ => rfl

def chooseRow (existing : Option Row) (row : Row) : Option Row :=
  if row.isNamed then some ((existing.getD (emptyRow row)).absorb row) else existing

theorem get?_mergeRow (merged : Dict RowKey Row) (row : Row) (key : RowKey) :
    (mergeRow merged row).get? key =
      if row.key = key then chooseRow (merged.get? key) row else merged.get? key := by
  unfold mergeRow chooseRow
  by_cases named : row.isNamed = true
  · rw [if_pos named, if_pos named, Dict.get?_set]
    by_cases same : row.key = key
    · subst same
      rfl
    · rw [if_neg same, if_neg same]
  · rw [if_neg named, if_neg named, ite_self]

def entries (rows : List Row) (key : RowKey) : List (String × PyVal) :=
  (rows.filter fun row => row.key = key && row.isNamed).flatMap Row.evidence

theorem evidence_foldl_chooseRow (rows : List Row) (existing : Option Row) :
    ((rows.foldl chooseRow existing).elim [] Row.evidence) =
      ((rows.filter Row.isNamed).flatMap Row.evidence).foldl mergeSample
        (existing.elim [] Row.evidence) := by
  induction rows generalizing existing with
  | nil => rfl
  | cons row rest induction =>
      rw [List.foldl_cons, induction]
      by_cases named : row.isNamed = true
      · rw [List.filter_cons_of_pos named, List.flatMap_cons, List.foldl_append]
        congr 1
        rw [chooseRow, if_pos named]
        cases existing <;> rfl
      · rw [List.filter_cons_of_neg named, chooseRow, if_neg named]

variable {row : Row}

theorem mem_mergeRow {merged : Dict RowKey Row}
    (keyed : ∀ entry ∈ merged, entry.2.key = entry.1 ∧ entry.2.isNamed = true) :
    ∀ entry ∈ mergeRow merged row, entry.2.key = entry.1 ∧ entry.2.isNamed = true := by
  intro entry member
  rw [mergeRow] at member
  split at member
  · next named =>
    rcases Dict.mem_set member with rfl | earlier
    · cases found : merged.get? row.key with
      | none => exact ⟨rfl, named⟩
      | some current =>
          have known := keyed _ (Dict.get?_eq_some_mem found)
          exact known
    · exact keyed entry earlier
  · exact keyed entry member

theorem keyed_merged (rows : List Row) :
    ∀ entry ∈ rows.foldl mergeRow [], entry.2.key = entry.1 ∧ entry.2.isNamed = true := by
  suffices folded : ∀ merged : Dict RowKey Row,
      (∀ entry ∈ merged, entry.2.key = entry.1 ∧ entry.2.isNamed = true) →
        ∀ entry ∈ rows.foldl mergeRow merged, entry.2.key = entry.1 ∧ entry.2.isNamed = true from
    folded [] fun entry member => by cases member
  induction rows with
  | nil => exact fun _ keyed => keyed
  | cons row rest induction => exact fun merged keyed => induction _ (mem_mergeRow keyed)

theorem find?_values {rows : Dict RowKey Row} (keyed : ∀ entry ∈ rows, entry.2.key = entry.1)
    (key : RowKey) : (rows.values.find? fun row => row.key = key) = rows.get? key := by
  induction rows with
  | nil => rfl
  | cons entry rest induction =>
      obtain ⟨head, row⟩ := entry
      have here : row.key = head := keyed _ List.mem_cons_self
      have later := induction fun entry member => keyed entry (List.mem_cons_of_mem _ member)
      by_cases same : head = key
      · simp [Dict.values, Dict.get?, here, same]
      · simpa [Dict.values, Dict.get?, here, same] using later

theorem sampleAt_normalize (rows : List Row) (key : RowKey) (id : String) :
    sampleAt (normalizeRollups rows) key id =
      ((entries rows key).filter fun entry => entry.1 = id).foldl chooseSample none := by
  have keyed (entry : RowKey × Row) (member : entry ∈ (rows.foldl mergeRow []).sortKeys) :
      entry.2.key = entry.1 :=
    (keyed_merged rows entry ((Dict.sortKeys_perm _).mem_iff.mp member)).1
  have finished : ((normalizeRollups rows).find? fun row => row.key = key) =
      ((rows.foldl mergeRow []).get? key).map Row.finish := by
    rw [normalizeRollups, List.find?_map]
    refine congrArg (Option.map Row.finish) ?_
    exact (find?_values keyed key).trans (Dict.get?_sortKeys _ _)
  have row : (rows.foldl mergeRow []).get? key =
      (rows.filter fun row => row.key = key).foldl chooseRow none :=
    Dict.get?_foldl get?_mergeRow rows [] key
  have evidence := evidence_foldl_chooseRow (rows.filter fun row => row.key = key) none
  rw [List.filter_filter] at evidence
  rw [sampleAt, finished, row]
  have merged := Dict.get?_foldl get?_mergeSample (entries rows key) [] id
  have same : entries rows key = (rows.filter fun row =>
      row.isNamed && decide (row.key = key)).flatMap Row.evidence := by
    simp only [entries, Bool.and_comm]
  rw [same] at merged ⊢
  refine Eq.trans ?_ merged
  rw [show ([] : Dict String PyVal) = (none : Option Row).elim [] Row.evidence from rfl, ← evidence]
  cases (rows.filter fun row => row.key = key).foldl chooseRow none with
  | none => rfl
  | some row => exact Dict.get?_sortKeys _ _

/-! ## Rows in shape -/

structure Shaped (rows : List Row) : Prop where
  keyed : (rows.map Row.key).Nodup
  named : ∀ row ∈ rows, row.isNamed = true
  ids : ∀ row ∈ rows, row.evidence.keys.Nodup
  samples : ∀ row ∈ rows, ∀ entry ∈ row.evidence, ∃ sample, entry.2 = .dict sample

theorem filter_of_nodup {ι κ : Type} [DecidableEq κ] {keyOf : ι → κ} {items : List ι}
    (nodup : (items.map keyOf).Nodup) (key : κ) :
    (items.filter fun item => keyOf item = key) =
      (items.find? fun item => keyOf item = key).toList := by
  induction items with
  | nil => rfl
  | cons item rest induction =>
      have parts := List.nodup_cons.mp nodup
      by_cases same : keyOf item = key
      · have none_ : (rest.filter fun item => keyOf item = key) = [] := by
          rw [List.filter_eq_nil_iff]
          intro other member also
          refine parts.1 ?_
          rw [same, ← of_decide_eq_true also]
          exact List.mem_map_of_mem member
        rw [List.filter_cons_of_pos (by simpa using same), none_,
          List.find?_cons_of_pos (by simpa using same)]
        rfl
      · rw [List.filter_cons_of_neg (by simpa using same),
          List.find?_cons_of_neg (by simpa using same)]
        exact induction parts.2

variable {rows : List Row}

theorem Shaped.entries_eq (shaped : Shaped rows) (key : RowKey) :
    entries rows key = (rows.find? fun row => row.key = key).elim [] Row.evidence := by
  have named : (rows.filter fun row => row.key = key && row.isNamed) =
      rows.filter fun row => row.key = key := by
    refine List.filter_congr fun row member => ?_
    rw [shaped.named row member, Bool.and_true]
  rw [entries, named, filter_of_nodup shaped.keyed]
  cases rows.find? fun row => row.key = key with
  | none => rfl
  | some row => exact List.append_nil _

theorem Shaped.copies (shaped : Shaped rows) (key : RowKey) (id : String) :
    ((entries rows key).filter fun entry => entry.1 = id).foldl chooseSample none =
      sampleAt rows key id := by
  rw [shaped.entries_eq, sampleAt]
  cases found : rows.find? fun row => row.key = key with
  | none => rfl
  | some row =>
      have member := List.mem_of_find?_eq_some found
      have single : (row.evidence.filter fun entry => entry.1 = id) =
          (row.evidence.find? fun entry => entry.1 = id).toList :=
        filter_of_nodup (shaped.ids row member) id
      show (row.evidence.filter _).foldl chooseSample none = row.evidence.get? id
      rw [single, Dict.get?_eq_find?]
      cases there : row.evidence.find? fun entry => entry.1 = id with
      | none => rfl
      | some entry =>
          obtain ⟨sample, mapping⟩ :=
            shaped.samples row member entry (List.mem_of_find?_eq_some there)
          show chooseSample none entry = some entry.2
          rw [chooseSample, mapping]
          rfl

theorem Shaped.sampleAt_normalize (shaped : Shaped rows) (key : RowKey)
    (id : String) : sampleAt (normalizeRollups rows) key id = sampleAt rows key id :=
  (Quality.sampleAt_normalize rows key id).trans (shaped.copies key id)

variable {evidence : Dict String PyVal}

theorem mem_mergeSample {entry : String × PyVal}
    (samples : ∀ entry ∈ evidence, ∃ sample, entry.2 = .dict sample) :
    ∀ other ∈ mergeSample evidence entry, ∃ sample, other.2 = .dict sample := by
  intro other member
  rw [mergeSample] at member
  split at member
  · next sample mapping =>
    split at member
    · exact samples other member
    · rcases Dict.mem_set member with rfl | earlier
      · exact ⟨sample, rfl⟩
      · exact samples other earlier
  · exact samples other member

theorem nodup_mergeSample (nodup : evidence.keys.Nodup)
    (entry : String × PyVal) : (mergeSample evidence entry).keys.Nodup := by
  rw [mergeSample]
  split
  · split
    · exact nodup
    · exact Dict.nodup_keys_set nodup _ _
  · exact nodup

def Row.InShape (row : Row) : Prop :=
  row.evidence.keys.Nodup ∧ ∀ entry ∈ row.evidence, ∃ sample, entry.2 = .dict sample

theorem Row.InShape.absorb {current : Row} (inShape : current.InShape) (row : Row) :
    (current.absorb row).InShape := by
  suffices folded : ∀ (incoming evidence : Dict String PyVal), evidence.keys.Nodup →
      (∀ entry ∈ evidence, ∃ sample, entry.2 = .dict sample) →
      (incoming.foldl mergeSample evidence).keys.Nodup ∧
        ∀ entry ∈ incoming.foldl mergeSample evidence, ∃ sample, entry.2 = .dict sample from
    folded row.evidence current.evidence inShape.1 inShape.2
  intro incoming
  induction incoming with
  | nil => exact fun _ nodup samples => ⟨nodup, samples⟩
  | cons entry rest induction =>
      exact fun evidence nodup samples =>
        induction _ (nodup_mergeSample nodup entry) (mem_mergeSample samples)

theorem nodup_merged (rows : List Row) : (rows.foldl mergeRow []).keys.Nodup := by
  suffices folded : ∀ merged : Dict RowKey Row, merged.keys.Nodup →
      (rows.foldl mergeRow merged).keys.Nodup from folded [] List.nodup_nil
  induction rows with
  | nil => exact fun _ nodup => nodup
  | cons row rest induction =>
      intro merged nodup
      refine induction _ ?_
      rw [mergeRow]
      split
      · exact Dict.nodup_keys_set nodup _ _
      · exact nodup

theorem inShape_merged (rows : List Row) :
    ∀ entry ∈ rows.foldl mergeRow [], entry.2.InShape := by
  suffices folded : ∀ merged : Dict RowKey Row, (∀ entry ∈ merged, entry.2.InShape) →
      ∀ entry ∈ rows.foldl mergeRow merged, entry.2.InShape from
    folded [] fun entry member => by cases member
  induction rows with
  | nil => exact fun _ inShape => inShape
  | cons row rest induction =>
      intro merged inShape
      refine induction _ fun entry member => ?_
      rw [mergeRow] at member
      split at member
      · rcases Dict.mem_set member with rfl | earlier
        · refine Row.InShape.absorb ?_ row
          cases found : merged.get? row.key with
          | none => exact ⟨List.nodup_nil, fun entry member => by cases member⟩
          | some current =>
              have known := inShape _ (Dict.get?_eq_some_mem found)
              exact known
        · exact inShape entry earlier
      · exact inShape entry member

theorem mem_normalizeRollups (member : row ∈ normalizeRollups rows) :
    ∃ merged, (merged.key, merged) ∈ rows.foldl mergeRow [] ∧ row = merged.finish := by
  obtain ⟨merged, among, rfl⟩ := List.mem_map.mp member
  obtain ⟨entry, within, rfl⟩ := List.mem_map.mp among
  have earlier := (Dict.sortKeys_perm _).mem_iff.mp within
  refine ⟨entry.2, ?_, rfl⟩
  rw [(keyed_merged rows entry earlier).1]
  exact earlier

theorem shaped_normalize (rows : List Row) : Shaped (normalizeRollups rows) where
  keyed := by
    have keys : (normalizeRollups rows).map Row.key = (rows.foldl mergeRow []).sortKeys.keys := by
      rw [normalizeRollups, List.map_map, Dict.values, List.map_map, Dict.keys]
      refine List.map_congr_left fun entry member => ?_
      exact (keyed_merged rows entry ((Dict.sortKeys_perm _).mem_iff.mp member)).1
    rw [keys]
    exact ((Dict.sortKeys_perm _).map Prod.fst).nodup_iff.mpr (nodup_merged rows)
  named row member := by
    obtain ⟨merged, within, rfl⟩ := mem_normalizeRollups member
    exact (keyed_merged rows _ within).2
  ids row member := by
    obtain ⟨merged, within, rfl⟩ := mem_normalizeRollups member
    exact ((Dict.sortKeys_perm _).map Prod.fst).nodup_iff.mpr (inShape_merged rows _ within).1
  samples row member entry among := by
    obtain ⟨merged, within, rfl⟩ := mem_normalizeRollups member
    exact (inShape_merged rows _ within).2 entry ((Dict.sortKeys_perm _).mem_iff.mp among)

/-! ## What a summary counts -/

def decidedAs (outcome : String) (sample : PyVal) : Bool :=
  field (sample.asDict?.getD []) "manual_decision" = .str outcome

/-- The summary of a row is what there is to count in its evidence. -/
structure Counts (summary : Summary) (samples : List PyVal) : Prop where
  reviewed : summary.reviewed = samples.countP fun sample =>
    isPrimary (field (sample.asDict?.getD []) "manual_decision")
  pending : summary.pending + summary.reviewed = samples.length
  primary : ∀ outcome ∈ primaryOutcomes,
    summary.primaryCounts.get? outcome = some (samples.countP (decidedAs outcome))
  timing : ∀ flag ∈ timingFlags, summary.timingCounts.get? flag =
    some ((samples.flatMap fun sample => flagsOf (sample.asDict?.getD [])).count (.str flag))

variable {counts : Dict String Nat} {name : String} {count : Nat}

theorem get?_countOne (counted : counts.get? name = some count) (value : PyVal) :
    (countOne counts value).get? name = some (count + [value].count (.str name)) := by
  rw [List.count_singleton]
  cases value with
  | str other =>
      rw [countOne]
      cases found : counts.get? other with
      | none =>
          have different : other ≠ name := by
            rintro rfl
            cases found.symm.trans counted
          have unequal : ((.str other : PyVal) == .str name) = false := by simpa using different
          rw [unequal]
          exact counted
      | some old =>
          rw [Dict.get?_set]
          by_cases same : other = name
          · subst same
            cases found.symm.trans counted
            simp
          · have unequal : ((.str other : PyVal) == .str name) = false := by simpa using same
            rw [if_neg same, unequal]
            exact counted
  | _ => exact counted

theorem get?_foldl_countOne (counted : counts.get? name = some count) (values : List PyVal) :
    (values.foldl countOne counts).get? name = some (count + values.count (.str name)) := by
  induction values generalizing counts count with
  | nil => exact counted
  | cons value rest induction =>
      rw [List.foldl_cons, induction (get?_countOne counted value), ← List.singleton_append (l := rest),
        List.count_append, Nat.add_assoc]

theorem Counts.addSample {summary : Summary} {samples : List PyVal} (counts : Counts summary samples)
    (sample : PyVal) : Counts (Quality.addSample summary sample) (samples ++ [sample]) where
  reviewed := by
    rw [List.countP_append, List.countP_singleton, ← counts.reviewed]
    rfl
  pending := by
    have both := counts.pending
    simp only [Quality.addSample, List.length_append, List.length_singleton]
    split <;> omega
  primary outcome known := by
    rw [List.countP_append, List.countP_singleton]
    refine (get?_countOne (counts.primary outcome known) _).trans ?_
    rw [List.count_singleton]
    rfl
  timing flag known := by
    rw [List.flatMap_append, List.count_append, List.flatMap_singleton]
    exact get?_foldl_countOne (counts.timing flag known) _

theorem counts_summarizeEvidence (evidence : Dict String PyVal) :
    Counts (summarizeEvidence evidence) evidence.values := by
  suffices folded : ∀ (later : List PyVal) (summary : Summary) (samples : List PyVal),
      Counts summary samples → Counts (later.foldl addSample summary) (samples ++ later) from
    folded evidence.values _ [] ⟨rfl, rfl, by decide, by decide⟩
  intro later
  induction later with
  | nil =>
      intro summary samples counts
      rw [List.append_nil]
      exact counts
  | cons sample rest induction =>
      intro summary samples counts
      have added := induction _ _ (counts.addSample sample)
      rwa [List.append_assoc, List.singleton_append] at added

def Summarized (rows : List Row) : Prop :=
  ∀ row ∈ rows, ∃ summary, row.summary = some summary ∧ Counts summary row.evidence.values

theorem summarized_normalize (rows : List Row) : Summarized (normalizeRollups rows) := by
  intro row member
  obtain ⟨merged, _, rfl⟩ := mem_normalizeRollups member
  exact ⟨_, rfl, counts_summarizeEvidence _⟩

end CityPods.Quality
