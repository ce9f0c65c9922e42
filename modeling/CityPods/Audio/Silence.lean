import CityPods.Audio.Clocks
import CityPods.Foundation.Gaps
import Mathlib.Algebra.Order.Ring.Abs
import Mathlib.Data.Prod.Lex
import Mathlib.Tactic.NormNum

/-! # Silence trimming

The edit list that leaves out the long silences of a source: what is kept is
packed to the left, and a rest of a millisecond is not kept.
-/

namespace CityPods.Audio

open Foundation
open Foundation.Gaps (gaps Apart FarFrom Within Ahead)

deriving instance DecidableEq for Kind, Segment, Timeline

/-! ## The planner -/

section

variable (sourceId : String) (sourceDuration : ℚ) (silences : List (ℚ × ℚ))
  (leadTrailMin midMin : ℚ)

/-- A silence at either end has another threshold than one in the middle. -/
def meetsThreshold (span : ℚ × ℚ) : Bool :=
  let duration := span.2 - span.1
  let isLeading := span.1 ≤ 1 / 1000
  let isTrailing := span.2 ≥ sourceDuration - 1 / 1000
  if isLeading ∨ isTrailing then duration ≥ leadTrailMin else duration ≥ midMin

def silenceCuts : List (ℚ × ℚ) := silences.filter (meetsThreshold sourceDuration leadTrailMin midMin)

def sortedCuts (cuts : List (ℚ × ℚ)) : List (ℚ × ℚ) :=
  cuts.insertionSort fun first second => toLex first ≤ toLex second

/-- The kept spans from a served time on. -/
def packedSegments : ℚ → List (ℚ × ℚ) → List Segment
  | _, [] => []
  | servedCursor, (sourceStart, sourceEnd) :: rest =>
      let span := sourceEnd - sourceStart
      ⟨servedCursor, servedCursor + span, .source sourceId sourceStart (some sourceEnd)⟩ ::
        packedSegments (servedCursor + span) rest

def buildSilenceTimeline : Option Timeline :=
  if silences = [] ∧ sourceDuration ≤ 0 then none
  else
    let cuts := silenceCuts sourceDuration silences leadTrailMin midMin
    if cuts = [] then none
    else
      let keep := gaps (1 / 1000) sourceDuration 0 (sortedCuts cuts)
      if keep = [] then none
      else some { version := "identity", segments := packedSegments sourceId 0 keep }

end

/-! ## The edit list -/

def Timeline.Keeps (timeline : Timeline) (sourceId : String) (instant : ℚ) : Prop :=
  ∃ segment ∈ timeline.segments, ∃ start stop,
    segment.kind = .source sourceId start (some stop) ∧ start ≤ instant ∧ instant ≤ stop

section

variable {sourceId : String} {served : ℚ} {keep : List (ℚ × ℚ)}

theorem contiguous_packedSegments (proper : ∀ span ∈ keep, span.1 < span.2) :
    Contiguous served (packedSegments sourceId served keep) := by
  induction keep generalizing served with
  | nil => trivial
  | cons span rest induction =>
      have positive := proper span List.mem_cons_self
      refine ⟨rfl, ?_, induction fun other inside => proper other (List.mem_cons_of_mem _ inside)⟩
      simp only
      linarith

theorem mem_packedSegments {segment : Segment}
    (member : segment ∈ packedSegments sourceId served keep) :
    ∃ span ∈ keep, segment.kind = .source sourceId span.1 (some span.2) ∧
      segment.servedEnd - segment.servedStart = span.2 - span.1 := by
  induction keep generalizing served with
  | nil => cases member
  | cons span rest induction =>
      rcases List.mem_cons.mp member with head | later
      · refine ⟨span, List.mem_cons_self, ?_, ?_⟩
        · rw [head]
        · rw [head]
          simp
      · obtain ⟨other, inside, facts⟩ := induction later
        exact ⟨other, List.mem_cons_of_mem _ inside, facts⟩

theorem exists_packedSegment {span : ℚ × ℚ} (member : span ∈ keep) :
    ∃ segment ∈ packedSegments sourceId served keep,
      segment.kind = .source sourceId span.1 (some span.2) := by
  induction keep generalizing served with
  | nil => cases member
  | cons first rest induction =>
      rcases List.mem_cons.mp member with head | later
      · rw [head]
        exact ⟨_, List.mem_cons_self, rfl⟩
      · obtain ⟨segment, inside, kind⟩ := induction later
        exact ⟨segment, List.mem_cons_of_mem _ inside, kind⟩

theorem increasing_packedSegments (order : Gaps.InOrder keep) :
    (packedSegments sourceId served keep).Pairwise Segment.Precedes := by
  induction keep generalizing served with
  | nil => exact .nil
  | cons span rest induction =>
      have parts := List.pairwise_cons.mp order
      refine .cons (fun segment member => ?_) (induction parts.2)
      obtain ⟨other, inside, kind, _⟩ := mem_packedSegments member
      intro id start stop start' stop' first second
      rw [kind] at second
      cases first
      cases second
      exact parts.1 other inside

end

/-! ## The cuts -/

section

variable {cuts : List (ℚ × ℚ)}

theorem mem_sortedCuts {cut : ℚ × ℚ} : cut ∈ sortedCuts cuts ↔ cut ∈ cuts :=
  (List.perm_insertionSort _ cuts).mem_iff

theorem sortedCuts_ne_nil (nonempty : cuts ≠ []) : sortedCuts cuts ≠ [] := by
  intro none
  apply nonempty
  have length := List.length_insertionSort (fun first second => toLex first ≤ toLex second) cuts
  rw [← sortedCuts, none] at length
  exact List.eq_nil_of_length_eq_zero length.symm

theorem ahead_sortedCuts (proper : ∀ cut ∈ cuts, cut.1 ≤ cut.2) (reach : ∀ cut ∈ cuts, 0 ≤ cut.2)
    (apart : cuts.Pairwise Apart) : Ahead 0 (sortedCuts cuts) := by
  have total : Std.Total fun first second : ℚ × ℚ => toLex first ≤ toLex second :=
    ⟨fun first second => le_total (toLex first) (toLex second)⟩
  have transitive : IsTrans (ℚ × ℚ) fun first second => toLex first ≤ toLex second :=
    ⟨fun first second third => le_trans⟩
  have symmetric : ∀ {first second : ℚ × ℚ}, Apart first second → Apart second first :=
    fun either => either.symm
  have sorted : (sortedCuts cuts).Pairwise fun first second => toLex first ≤ toLex second :=
    List.pairwise_insertionSort _ cuts
  have separate : (sortedCuts cuts).Pairwise Apart :=
    ((List.perm_insertionSort _ cuts).pairwise_iff symmetric).mpr apart
  refine ⟨fun cut member => proper cut (mem_sortedCuts.mp member), ?_,
    fun cut member => reach cut (mem_sortedCuts.mp member)⟩
  have both := sorted.and separate
  apply both.imp_of_mem
  intro first second inFirst inSecond facts
  rcases facts.2 with before | after
  · exact before
  · -- The later cut in the order ends before the other begins: both are one instant.
    have later := proper second (mem_sortedCuts.mp inSecond)
    rcases Prod.Lex.le_iff.mp facts.1 with less | ⟨same, ends⟩
    · exact absurd (later.trans after) (not_le_of_gt less)
    · exact ends.trans (after.trans (le_of_eq same))

end

/-! ## What a plan keeps -/

/-- Silences of a source: in time order each, not after its end, and apart. -/
structure Spans (sourceDuration : ℚ) (silences : List (ℚ × ℚ)) : Prop where
  proper : ∀ span ∈ silences, span.1 ≤ span.2
  start_le : ∀ span ∈ silences, span.1 ≤ sourceDuration
  apart : silences.Pairwise Apart

structure Trims (sourceId : String) (sourceDuration : ℚ) (silences : List (ℚ × ℚ))
    (leadTrailMin midMin : ℚ) (timeline : Timeline) : Prop where
  wellFormed : timeline.WellFormed
  inside : ∀ segment ∈ timeline.segments, ∃ start stop,
    segment.kind = .source sourceId start (some stop) ∧ 0 ≤ start ∧ stop ≤ sourceDuration
  keeps : ∀ instant, 0 ≤ instant → instant ≤ sourceDuration →
    FarFrom (1 / 1000) (silenceCuts sourceDuration silences leadTrailMin midMin) instant →
    (timeline.Keeps sourceId instant ↔ ∀ span ∈ silences,
      meetsThreshold sourceDuration leadTrailMin midMin span → ¬Within span instant)

/-- No interval that is left between the qualifying spans is longer than a millisecond. -/
def OnlySlivers (sourceDuration : ℚ) (silences : List (ℚ × ℚ)) (leadTrailMin midMin : ℚ) : Prop :=
  ∀ interval : ℚ × ℚ, 0 ≤ interval.1 → interval.2 ≤ sourceDuration →
    (∀ span ∈ silences, meetsThreshold sourceDuration leadTrailMin midMin span →
      Apart interval span) → interval.2 - interval.1 ≤ 1 / 1000

section

variable {sourceId : String} {sourceDuration leadTrailMin midMin : ℚ} {silences : List (ℚ × ℚ)}

theorem mem_silenceCuts {span : ℚ × ℚ} :
    span ∈ silenceCuts sourceDuration silences leadTrailMin midMin ↔
      span ∈ silences ∧ meetsThreshold sourceDuration leadTrailMin midMin span := by
  rw [silenceCuts, List.mem_filter]

theorem Spans.ahead (spans : Spans sourceDuration silences) (reach : ∀ span ∈ silences, 0 ≤ span.2) :
    Ahead 0 (sortedCuts (silenceCuts sourceDuration silences leadTrailMin midMin)) :=
  ahead_sortedCuts (fun cut taken => spans.proper cut (mem_silenceCuts.mp taken).1)
    (fun cut taken => reach cut (mem_silenceCuts.mp taken).1)
    (spans.apart.sublist List.filter_sublist)

theorem buildSilenceTimeline_eq (positive : 0 < sourceDuration) :
    buildSilenceTimeline sourceId sourceDuration silences leadTrailMin midMin =
      let cuts := silenceCuts sourceDuration silences leadTrailMin midMin
      let keep := gaps (1 / 1000) sourceDuration 0 (sortedCuts cuts)
      if cuts = [] ∨ keep = [] then none
      else some { version := "identity", segments := packedSegments sourceId 0 keep } := by
  rw [buildSilenceTimeline, if_neg fun empty => absurd positive (not_lt_of_ge empty.2)]
  simp only
  split_ifs <;> simp_all

theorem trims_packedSegments (spans : Spans sourceDuration silences)
    (reach : ∀ span ∈ silences, 0 ≤ span.2)
    (nonempty : silenceCuts sourceDuration silences leadTrailMin midMin ≠ []) :
    Trims sourceId sourceDuration silences leadTrailMin midMin
      { version := "identity"
        segments := packedSegments sourceId 0 (gaps (1 / 1000) sourceDuration 0
          (sortedCuts (silenceCuts sourceDuration silences leadTrailMin midMin))) } := by
  have ahead : Ahead 0 (sortedCuts (silenceCuts sourceDuration silences leadTrailMin midMin)) :=
    spans.ahead reach
  have starts : ∀ cut ∈ sortedCuts (silenceCuts sourceDuration silences leadTrailMin midMin),
      cut.1 ≤ sourceDuration := fun cut taken =>
    spans.start_le cut (mem_silenceCuts.mp (mem_sortedCuts.mp taken)).1
  have positive : ∀ span ∈ gaps (1 / 1000) sourceDuration 0
      (sortedCuts (silenceCuts sourceDuration silences leadTrailMin midMin)), span.1 < span.2 :=
    fun span member => Gaps.start_lt_stop_of_mem_gaps (by norm_num) member
  refine ⟨⟨contiguous_packedSegments positive, fun segment member => ?rigid,
    increasing_packedSegments (Gaps.inOrder_gaps ahead)⟩, fun segment member => ?inside,
    fun instant after before far => ?keeps⟩
  case rigid =>
    obtain ⟨span, inside, kind, length⟩ := mem_packedSegments member
    intro id start stop same
    rw [kind] at same
    cases same
    exact ⟨span.2, rfl, positive span inside, length⟩
  case inside =>
    obtain ⟨span, inside, kind, _⟩ := mem_packedSegments member
    exact ⟨span.1, span.2, kind, Gaps.le_start_of_mem_gaps ahead inside,
      Gaps.stop_le_of_mem_gaps starts inside⟩
  case keeps =>
    have farSorted : FarFrom (1 / 1000)
        (sortedCuts (silenceCuts sourceDuration silences leadTrailMin midMin)) instant :=
      fun cut taken => far cut (mem_sortedCuts.mp taken)
    have gapIff := Gaps.within_gap_iff (by norm_num) ahead (sortedCuts_ne_nil nonempty) after before
      farSorted
    constructor
    · rintro ⟨segment, member, start, stop, kind, within⟩ span given qualifies
      obtain ⟨gap, inGaps, gapKind, _⟩ := mem_packedSegments member
      rw [gapKind] at kind
      cases kind
      exact gapIff.mp ⟨gap, inGaps, within⟩ span
        (mem_sortedCuts.mpr (mem_silenceCuts.mpr ⟨given, qualifies⟩))
    · intro outside
      obtain ⟨gap, inGaps, within⟩ := gapIff.mpr fun cut taken =>
        outside cut (mem_silenceCuts.mp (mem_sortedCuts.mp taken)).1
          (mem_silenceCuts.mp (mem_sortedCuts.mp taken)).2
      obtain ⟨segment, member, kind⟩ := exists_packedSegment inGaps
      exact ⟨segment, member, gap.1, gap.2, kind, within⟩

/-- A plan leaves out the qualifying silences and nothing else; without a plan
none qualifies, or nothing but slivers is left. -/
theorem buildSilenceTimeline_trims (positive : 0 < sourceDuration)
    (spans : Spans sourceDuration silences) (reach : ∀ span ∈ silences, 0 ≤ span.2) :
    (∀ timeline,
        buildSilenceTimeline sourceId sourceDuration silences leadTrailMin midMin = some timeline →
        Trims sourceId sourceDuration silences leadTrailMin midMin timeline) ∧
      (buildSilenceTimeline sourceId sourceDuration silences leadTrailMin midMin = none →
        (∀ span ∈ silences, meetsThreshold sourceDuration leadTrailMin midMin span = false) ∨
          OnlySlivers sourceDuration silences leadTrailMin midMin) := by
  rw [buildSilenceTimeline_eq positive]
  simp only
  split
  · next empty =>
    refine ⟨(fun timeline planned => nomatch planned), fun _ => ?_⟩
    rcases empty with noCuts | noGaps
    · left
      intro span given
      rw [silenceCuts, List.filter_eq_nil_iff] at noCuts
      exact Bool.eq_false_iff.mpr (noCuts span given)
    · right
      intro interval after before apart
      apply Gaps.length_le_of_gaps_nil noGaps after before
      intro cut taken
      have facts := mem_silenceCuts.mp (mem_sortedCuts.mp taken)
      exact apart cut facts.1 facts.2
  · next nonempty =>
    refine ⟨fun timeline planned => ?_, (fun none => nomatch none)⟩
    cases planned
    exact trims_packedSegments spans reach fun noCuts => nonempty (.inl noCuts)

end

/-- A silence before the source begins moves the first kept span there, and a rest
of a whole millisecond is dropped. -/
theorem buildSilenceTimeline_not_trims :
    (Spans 10 [(-3, -1)] ∧ ∃ timeline, buildSilenceTimeline "s0" 10 [(-3, -1)] 1 10 = some timeline ∧
      ¬∀ segment ∈ timeline.segments, ∃ start stop,
        segment.kind = .source "s0" start (some stop) ∧ 0 ≤ start ∧ stop ≤ 10) ∧
    (Spans 2 [(1 / 1000, 2)] ∧ buildSilenceTimeline "s0" 2 [(1 / 1000, 2)] 1 10 = none ∧
      meetsThreshold 2 1 10 (1 / 1000, 2) = true ∧ Apart ((0 : ℚ), 1 / 1000) (1 / 1000, 2) ∧
      ¬(1 / 1000 - 0 : ℚ) < 1 / 1000) := by
  refine ⟨⟨⟨by norm_num, by norm_num, List.pairwise_singleton _ _⟩,
    ⟨"identity", [⟨0, 11, .source "s0" (-1) (some 10)⟩], "served"⟩, by decide +kernel, ?_⟩, ?_⟩
  · intro inside
    obtain ⟨start, stop, kind, after, _⟩ := inside _ List.mem_cons_self
    cases kind
    norm_num at after
  · refine ⟨⟨by norm_num, by norm_num, List.pairwise_singleton _ _⟩, by decide +kernel,
      by decide +kernel, .inl (le_refl _), by norm_num⟩

theorem buildSilenceTimeline_trims_meeting :
    (∀ timeline, buildSilenceTimeline "s0" 100 [(98, 101), (40, 52), (60, 65), (0, 5)] 1 10 =
        some timeline →
        Trims "s0" 100 [(98, 101), (40, 52), (60, 65), (0, 5)] 1 10 timeline) ∧
      (buildSilenceTimeline "s0" 100 [(98, 101), (40, 52), (60, 65), (0, 5)] 1 10 = none →
        (∀ span ∈ [((98 : ℚ), (101 : ℚ)), (40, 52), (60, 65), (0, 5)],
          meetsThreshold 100 1 10 span = false) ∨
          OnlySlivers 100 [(98, 101), (40, 52), (60, 65), (0, 5)] 1 10) :=
  buildSilenceTimeline_trims (by norm_num)
    ⟨by decide, by decide, by simp [Apart]; norm_num⟩ (by decide)

end CityPods.Audio
