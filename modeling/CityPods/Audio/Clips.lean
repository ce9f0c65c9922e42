import Mathlib.Algebra.Order.Group.MinMax
import CityPods.Audio.Clocks

/-! # Clips

The part of a timeline within a served range, laid out from zero: what it plays,
and how two ranges that meet make up one.
-/

namespace CityPods.Audio

open Foundation
open Foundation.Pieces (covering covering_of_mem)

/-! ## Clip extraction -/

/-- The clip's segments from the position `cur` on, and the source spans among them. -/
def clipSegments (clipStart clipEnd : ℚ) : ℚ → List Segment → List Segment × List (String × ℚ × ℚ)
  | _, [] => ([], [])
  | cur, segment :: rest =>
      let overlapStart := max clipStart segment.servedStart
      let overlapEnd := min clipEnd segment.servedEnd
      if overlapStart ≥ overlapEnd then clipSegments clipStart clipEnd cur rest
      else
        let span := overlapEnd - overlapStart
        let later := clipSegments clipStart clipEnd (cur + span) rest
        match segment.kind with
        | .source sourceId sourceStart _ =>
            let offset := sourceStart - segment.servedStart
            let srcStart := overlapStart + offset
            let srcEnd := overlapEnd + offset
            (⟨cur, cur + span, .source sourceId srcStart (some srcEnd)⟩ :: later.1,
              (sourceId, srcStart, srcEnd) :: later.2)
        | .insert insert assetId assetVersion =>
            (⟨cur, cur + span, .insert insert assetId assetVersion⟩ :: later.1, later.2)

/-- The clip, and its source spans for attribution. -/
def clipTimeline (epTimeline : Timeline) (clipStart clipEnd : ℚ) :
    Timeline × List (String × ℚ × ℚ) :=
  let clipped := clipSegments clipStart clipEnd 0 epTimeline.segments
  ({ version := epTimeline.version, segments := clipped.1 }, clipped.2)

/-! ## Restriction and shift -/

def Segment.kindWithin (segment : Segment) (start stop : ℚ) : Kind :=
  match segment.kind with
  | .source sourceId sourceStart _ =>
      .source sourceId (start + (sourceStart - segment.servedStart))
        (some (stop + (sourceStart - segment.servedStart)))
  | .insert insert assetId assetVersion => .insert insert assetId assetVersion

/-- The part of the segment within the range, at its place in served time. -/
def Segment.restrict (start stop : ℚ) (segment : Segment) : Option Segment :=
  if max start segment.servedStart < min stop segment.servedEnd then
    some ⟨max start segment.servedStart, min stop segment.servedEnd,
      segment.kindWithin (max start segment.servedStart) (min stop segment.servedEnd)⟩
  else none

def Segment.earlier (by_ : ℚ) (segment : Segment) : Segment :=
  { segment with servedStart := segment.servedStart - by_, servedEnd := segment.servedEnd - by_ }

def Segment.sourceCut (segment : Segment) : Option (String × ℚ × ℚ) :=
  match segment.kind with
  | .source sourceId sourceStart (some sourceEnd) => some (sourceId, sourceStart, sourceEnd)
  | _ => none

/-- How much of the range lies within `[0, instant]`. -/
def lengthTo (start stop instant : ℚ) : ℚ := max 0 (min stop instant - max start 0)

variable {start stop until_ : ℚ}

theorem lengthTo_inside {from_ : ℚ} (nonnegative : 0 ≤ from_)
    (overlap : max start from_ < min stop until_) :
    lengthTo start stop from_ = max start from_ - max start 0 ∧
      lengthTo start stop until_ = min stop until_ - max start 0 := by
  obtain ⟨startStop, startUntil⟩ := lt_min_iff.mp ((le_max_left _ _).trans_lt overlap)
  obtain ⟨fromStop, fromUntil⟩ := lt_min_iff.mp ((le_max_right _ _).trans_lt overlap)
  have above : max start 0 ≤ max start from_ := max_le_max_left _ nonnegative
  constructor
  · rw [lengthTo, min_eq_right fromStop.le]
    rcases le_total start from_ with before | after
    · rw [max_eq_right before] at above ⊢
      exact max_eq_right (by linarith)
    · rw [max_eq_left after, max_eq_left (nonnegative.trans after)]
      rw [max_eq_left (by linarith)]
      linarith
  · rw [lengthTo]
    exact max_eq_right (by linarith)

theorem lengthTo_outside {from_ : ℚ} (forward : from_ ≤ until_)
    (apart : min stop until_ ≤ max start from_) :
    lengthTo start stop until_ = lengthTo start stop from_ := by
  unfold lengthTo
  rcases le_total stop from_ with past | within
  · rw [min_eq_left past, min_eq_left (past.trans forward)]
  · rw [min_eq_right within]
    have low : min stop until_ ≤ max start 0 ∨ min stop until_ = from_ := by
      rcases le_total start from_ with before | after
      · rw [max_eq_right before] at apart
        exact .inr (le_antisymm apart (le_min within forward))
      · rw [max_eq_left after] at apart
        exact .inl (apart.trans (le_max_left _ _))
    rcases low with low | same
    · have below : from_ ≤ min stop until_ := le_min within forward
      rw [max_eq_left (by linarith), max_eq_left (by linarith)]
    · rw [same]

variable {segments : List Segment} {from_ : ℚ}

/-- The clip is the restriction to the range, moved to the front. -/
theorem clipSegments_eq (start stop : ℚ)
    (contiguous : Contiguous from_ segments) (nonnegative : 0 ≤ from_) :
    clipSegments start stop (lengthTo start stop from_) segments =
      ((segments.filterMap (Segment.restrict start stop)).map (Segment.earlier (max start 0)),
        (segments.filterMap (Segment.restrict start stop)).filterMap Segment.sourceCut) := by
  induction segments generalizing from_ with
  | nil => rfl
  | cons segment rest induction =>
      obtain ⟨rfl, forward, later⟩ := contiguous
      have rest_eq := induction later (nonnegative.trans forward)
      rw [clipSegments]
      by_cases overlap : max start segment.servedStart < min stop segment.servedEnd
      · have restricted : segment.restrict start stop = some _ := if_pos overlap
        obtain ⟨before, after⟩ := lengthTo_inside nonnegative overlap
        rw [after] at rest_eq
        rw [List.filterMap_cons_some restricted, if_neg (not_le.mpr overlap), before]
        have moved : max start segment.servedStart - max start 0 +
            (min stop segment.servedEnd - max start segment.servedStart) =
              min stop segment.servedEnd - max start 0 := by ring
        simp only [moved, rest_eq]
        cases kind : segment.kind with
        | source sourceId sourceStart sourceEnd =>
            simp [Segment.kindWithin, kind, Segment.earlier, Segment.sourceCut]
        | insert insert assetId assetVersion =>
            simp only [Segment.kindWithin, kind, List.map_cons, Segment.earlier, Prod.mk.injEq,
              true_and]
            exact (List.filterMap_cons_none rfl).symm
      · have dropped : segment.restrict start stop = none := if_neg overlap
        rw [List.filterMap_cons_none dropped, if_pos (not_lt.mp overlap),
          ← lengthTo_outside forward (not_lt.mp overlap)]
        exact rest_eq

theorem lengthTo_zero (start stop : ℚ) : lengthTo start stop 0 = 0 := by
  refine max_eq_left ?_
  have below := min_le_right stop 0
  have above := le_max_right start 0
  linarith

variable {timeline : Timeline}

theorem clipTimeline_eq (contiguous : Contiguous 0 timeline.segments)
    (start stop : ℚ) : clipTimeline timeline start stop =
      ({ version := timeline.version
         segments := (timeline.segments.filterMap (Segment.restrict start stop)).map
           (Segment.earlier (max start 0)) },
        (timeline.segments.filterMap (Segment.restrict start stop)).filterMap Segment.sourceCut) := by
  have clipped := clipSegments_eq start stop contiguous le_rfl
  rw [lengthTo_zero] at clipped
  rw [clipTimeline, clipped]

/-! ## Layout -/

variable {segment : Segment}

theorem Segment.restrict_eq_some {part : Segment}
    (restricted : segment.restrict start stop = some part) :
    max start segment.servedStart < min stop segment.servedEnd ∧
      part = ⟨max start segment.servedStart, min stop segment.servedEnd,
        segment.kindWithin (max start segment.servedStart) (min stop segment.servedEnd)⟩ := by
  obtain ⟨overlap, same⟩ := Option.ite_none_right_eq_some.mp restricted
  exact ⟨overlap, (Option.some.inj same).symm⟩

/-- The clip's segments follow each other, are not empty, and play as much of a source
as they last. -/
theorem contiguous_clip (start stop : ℚ)
    (contiguous : Contiguous from_ segments) (nonnegative : 0 ≤ from_) :
    Contiguous (lengthTo start stop from_)
      ((segments.filterMap (Segment.restrict start stop)).map (Segment.earlier (max start 0))) := by
  induction segments generalizing from_ with
  | nil => trivial
  | cons segment rest induction =>
      obtain ⟨rfl, forward, later⟩ := contiguous
      have rest_contiguous := induction later (nonnegative.trans forward)
      by_cases overlap : max start segment.servedStart < min stop segment.servedEnd
      · have restricted : segment.restrict start stop = some _ := if_pos overlap
        obtain ⟨before, after⟩ := lengthTo_inside nonnegative overlap
        rw [List.filterMap_cons_some restricted]
        rw [after] at rest_contiguous
        exact ⟨before.symm, sub_le_sub_right overlap.le _, rest_contiguous⟩
      · have dropped : segment.restrict start stop = none := if_neg overlap
        rw [List.filterMap_cons_none dropped, ← lengthTo_outside forward (not_lt.mp overlap)]
        exact rest_contiguous

def totalSpan (segments : List Segment) : ℚ :=
  (segments.map fun segment => segment.servedEnd - segment.servedStart).sum

theorem totalSpan_clip (start stop : ℚ)
    (contiguous : Contiguous from_ segments) (nonnegative : 0 ≤ from_) :
    totalSpan ((segments.filterMap (Segment.restrict start stop)).map (Segment.earlier (max start 0))) =
      lengthTo start stop (from_ + totalSpan segments) - lengthTo start stop from_ := by
  induction segments generalizing from_ with
  | nil => simp [totalSpan]
  | cons segment rest induction =>
      obtain ⟨rfl, forward, later⟩ := contiguous
      have rest_total := induction later (nonnegative.trans forward)
      have whole : segment.servedStart + totalSpan (segment :: rest) =
          segment.servedEnd + totalSpan rest := by
        rw [totalSpan, List.map_cons, List.sum_cons, totalSpan]
        ring
      rw [whole]
      by_cases overlap : max start segment.servedStart < min stop segment.servedEnd
      · have restricted : segment.restrict start stop = some _ := if_pos overlap
        obtain ⟨before, after⟩ := lengthTo_inside nonnegative overlap
        rw [List.filterMap_cons_some restricted, List.map_cons, totalSpan, List.map_cons,
          List.sum_cons, ← totalSpan, rest_total, before, after]
        simp only [Segment.earlier]
        ring
      · have dropped : segment.restrict start stop = none := if_neg overlap
        rw [List.filterMap_cons_none dropped, rest_total,
          lengthTo_outside forward (not_lt.mp overlap)]

/-! ## Instants -/

variable {instant : ℚ}

theorem Contiguous.exists_at (contiguous : Contiguous from_ segments) (above : from_ ≤ instant)
    (below : instant < from_ + totalSpan segments) :
    ∃ segment ∈ segments, segment.servedStart ≤ instant ∧ instant < segment.servedEnd := by
  induction segments generalizing from_ with
  | nil =>
      rw [totalSpan, List.map_nil, List.sum_nil, add_zero] at below
      exact absurd below (not_lt.mpr above)
  | cons segment rest induction =>
      obtain ⟨rfl, forward, later⟩ := contiguous
      by_cases inside : instant < segment.servedEnd
      · exact ⟨segment, List.mem_cons_self, above, inside⟩
      · rw [totalSpan, List.map_cons, List.sum_cons, ← totalSpan] at below
        obtain ⟨found, member, within⟩ := induction later (not_lt.mp inside) (by linarith)
        exact ⟨found, List.mem_cons_of_mem _ member, within⟩

/-- The clip plays what the episode plays, from the start of the range on. -/
theorem servedToSource_clip (contiguous : Contiguous 0 timeline.segments)
    (nonnegative : 0 ≤ start) (above : 0 ≤ instant)
    (below : start + instant < min stop (totalSpan timeline.segments)) :
    servedToSource (clipTimeline timeline start stop).1 instant =
      servedToSource timeline (start + instant) := by
  obtain ⟨beforeStop, within⟩ := lt_min_iff.mp below
  obtain ⟨segment, member, begun, unfinished⟩ :=
    contiguous.exists_at (add_nonneg nonnegative above) (by rwa [zero_add])
  have opens : max start segment.servedStart ≤ start + instant :=
    max_le (le_add_of_nonneg_right above) begun
  have closes : start + instant < min stop segment.servedEnd := lt_min beforeStop unfinished
  have restricted : segment.restrict start stop = some _ := if_pos (opens.trans_lt closes)
  have covered := covering_of_mem contiguous.disjoint member begun unfinished
  have front : max start 0 = start := max_eq_left nonnegative
  have among := List.mem_map_of_mem (f := Segment.earlier start)
    (List.mem_filterMap.mpr ⟨segment, member, restricted⟩)
  have laid := contiguous_clip start stop contiguous le_rfl
  rw [front] at laid
  have opened : max start segment.servedStart - start ≤ instant := by linarith
  have unclosed : instant < min stop segment.servedEnd - start := by linarith
  have clipped := covering_of_mem laid.disjoint among opened unclosed
  rw [clipTimeline_eq contiguous, servedToSource, servedToSource, covered, front]
  dsimp only
  rw [clipped, Option.bind_some, Option.bind_some]
  cases kind : segment.kind with
  | insert insert assetId assetVersion => simp only [Segment.earlier, Segment.kindWithin, kind]
  | source sourceId sourceStart sourceEnd =>
      simp only [Segment.earlier, Segment.kindWithin, kind]
      congr 2
      ring

/-! ## Ranges that meet -/

/-- What a segment plays: its kind, which names the source's span, and how long it lasts. -/
structure Played where
  kind : Kind
  span : ℚ

def Segment.played (segment : Segment) : Played :=
  ⟨segment.kind, segment.servedEnd - segment.servedStart⟩

/-- One piece, and the next of the same segment. -/
def Played.join (left right : Played) : Played where
  kind :=
    match left.kind, right.kind with
    | .source sourceId sourceStart _, .source _ _ sourceEnd => .source sourceId sourceStart sourceEnd
    | kind, _ => kind
  span := left.span + right.span

/-- The second piece goes on where the first one ends. -/
def Played.Adjoins (left right : Played) : Prop :=
  match left.kind, right.kind with
  | .source sourceId _ sourceEnd, .source other sourceStart _ =>
      sourceId = other ∧ sourceEnd = some sourceStart
  | .insert insert assetId assetVersion, kind => kind = .insert insert assetId assetVersion
  | _, _ => False

def playedBy (timeline : Timeline) : List Played := timeline.segments.map Segment.played

def Segment.CutAt (segment : Segment) (instant : ℚ) : Prop :=
  segment.servedStart < instant ∧ instant < segment.servedEnd

/-- The list that two ranges make up: the pieces of a segment that the instant cuts
are joined, and nothing else. -/
def Joins (segments : List Segment) (instant : ℚ) (whole front back : List Played) : Prop :=
  ((∀ segment ∈ segments, ¬ segment.CutAt instant) ∧ whole = front ++ back) ∨
    (∃ segment ∈ segments, segment.CutAt instant) ∧
      ∃ before left right after, front = before ++ [left] ∧ back = right :: after ∧
        left.Adjoins right ∧ whole = before ++ left.join right :: after

section

variable {start middle stop : ℚ} {segment : Segment}

theorem restrict_before (start : ℚ) (rising : middle < stop) (ends : segment.servedEnd ≤ middle) :
    segment.restrict start stop = segment.restrict start middle ∧
      segment.restrict middle stop = none := by
  constructor
  · rw [Segment.restrict, Segment.restrict, min_eq_right ends, min_eq_right (ends.trans rising.le)]
  · refine if_neg (not_lt.mpr ?_)
    exact (min_le_right _ _).trans (ends.trans (le_max_left _ _))

theorem restrict_after (stop : ℚ) (rising : start < middle) (begins : middle ≤ segment.servedStart) :
    segment.restrict start stop = segment.restrict middle stop ∧
      segment.restrict start middle = none := by
  constructor
  · rw [Segment.restrict, Segment.restrict, max_eq_right begins, max_eq_right (rising.le.trans begins)]
  · refine if_neg (not_lt.mpr ?_)
    exact (min_le_left _ _).trans (begins.trans (le_max_right _ _))

theorem restrict_cut (rising : start < middle) (falling : middle < stop)
    (begun : segment.servedStart < middle) (unfinished : middle < segment.servedEnd) :
    ∃ left right whole, segment.restrict start middle = some left ∧
      segment.restrict middle stop = some right ∧ segment.restrict start stop = some whole ∧
      left.played.Adjoins right.played ∧ whole.played = left.played.join right.played := by
  have opens : max start segment.servedStart < middle := max_lt rising begun
  have closes : middle < min stop segment.servedEnd := lt_min falling unfinished
  have front : min middle segment.servedEnd = middle := min_eq_left unfinished.le
  have back : max middle segment.servedStart = middle := max_eq_left begun.le
  refine ⟨_, _, _, if_pos (front.symm ▸ opens), if_pos (back.symm ▸ closes),
    if_pos (opens.trans closes), ?_, ?_⟩
  · rw [front, back]
    cases kind : segment.kind <;> simp [Played.Adjoins, Segment.played, Segment.kindWithin, kind]
  · rw [front, back]
    cases kind : segment.kind <;> simp [Played.join, Segment.played, Segment.kindWithin, kind]

end

def playedWithin (start stop : ℚ) (segments : List Segment) : List Played :=
  (segments.filterMap (Segment.restrict start stop)).map Segment.played

theorem playedWithin_cons (start stop : ℚ) (segment : Segment) (rest : List Segment) :
    playedWithin start stop (segment :: rest) =
      ((segment.restrict start stop).map Segment.played).toList ++ playedWithin start stop rest := by
  rw [playedWithin, List.filterMap_cons]
  cases segment.restrict start stop <;> rfl

variable {middle : ℚ}

theorem playedWithin_after (stop : ℚ)
    (rising : start < middle) (begin : ∀ segment ∈ segments, middle ≤ segment.servedStart) :
    playedWithin start middle segments = [] ∧
      playedWithin start stop segments = playedWithin middle stop segments := by
  induction segments with
  | nil => exact ⟨rfl, rfl⟩
  | cons segment rest induction =>
      obtain ⟨none, same⟩ := induction fun other member => begin other (List.mem_cons_of_mem _ member)
      obtain ⟨kept, dropped⟩ := restrict_after stop rising (begin segment List.mem_cons_self)
      rw [playedWithin_cons, playedWithin_cons, playedWithin_cons, kept, dropped, none, same]
      exact ⟨rfl, rfl⟩

theorem playedWithin_joins
    (contiguous : Contiguous from_ segments) (rising : start < middle) (falling : middle < stop) :
    Joins segments middle (playedWithin start stop segments) (playedWithin start middle segments)
      (playedWithin middle stop segments) := by
  induction segments generalizing from_ with
  | nil => exact .inl ⟨fun _ member => absurd member List.not_mem_nil, rfl⟩
  | cons segment rest induction =>
      obtain ⟨rfl, forward, later⟩ := contiguous
      have follow := later.start_le
      rw [playedWithin_cons, playedWithin_cons, playedWithin_cons]
      by_cases ends : segment.servedEnd ≤ middle
      · obtain ⟨kept, dropped⟩ := restrict_before start falling ends
        rw [kept, dropped]
        have uncut : ¬ segment.CutAt middle := fun cut => absurd cut.2 (not_lt.mpr ends)
        rcases induction later with ⟨whole, same⟩ | ⟨⟨cut, member, inside⟩, joined⟩
        · refine .inl ⟨fun other member => ?_, by rw [same, List.append_assoc]; rfl⟩
          rcases List.mem_cons.mp member with rfl | within
          · exact uncut
          · exact whole other within
        · obtain ⟨before, left, right, after, front, back, adjoin, same⟩ := joined
          refine .inr ⟨⟨cut, List.mem_cons_of_mem _ member, inside⟩,
            ((segment.restrict start middle).map Segment.played).toList ++ before, left, right, after,
            ?_, ?_, adjoin, ?_⟩
          · rw [front, List.append_assoc]
          · rw [back]
            rfl
          · rw [same, List.append_assoc]
      · have late : ∀ other ∈ rest, middle ≤ other.servedStart := fun other member =>
          (not_le.mp ends).le.trans (follow other member)
        obtain ⟨none, same⟩ := playedWithin_after stop rising late
        rw [none, same]
        by_cases begins : middle ≤ segment.servedStart
        · obtain ⟨kept, dropped⟩ := restrict_after stop rising begins
          rw [kept, dropped]
          refine .inl ⟨fun other member cut => absurd cut.1 (not_lt.mpr ?_), rfl⟩
          rcases List.mem_cons.mp member with rfl | within
          · exact begins
          · exact late other within
        · obtain ⟨left, right, whole, front, back, all, adjoin, joined⟩ :=
            restrict_cut rising falling (not_le.mp begins) (not_le.mp ends)
          rw [front, back, all]
          refine .inr ⟨⟨segment, List.mem_cons_self, not_le.mp begins, not_le.mp ends⟩, [], left.played,
            right.played, playedWithin middle stop rest, rfl, rfl, adjoin, ?_⟩
          rw [Option.map_some, joined]
          rfl

/-! ## The result -/

/-- A timeline that begins at zero and whose segments follow each other, each of which
takes time. -/
structure Timeline.Continuous (timeline : Timeline) : Prop where
  contiguous : Contiguous 0 timeline.segments
  positive : ∀ segment ∈ timeline.segments, segment.servedStart < segment.servedEnd

theorem playedBy_clip (contiguous : Contiguous 0 timeline.segments) (start stop : ℚ) :
    playedBy (clipTimeline timeline start stop).1 = playedWithin start stop timeline.segments := by
  have shifted : Segment.played ∘ Segment.earlier (max start 0) = Segment.played := by
    funext segment
    simp [Segment.played, Segment.earlier]
  rw [clipTimeline_eq contiguous, playedBy, List.map_map, shifted, playedWithin]

theorem edlDuration_eq (timeline : Timeline) : edlDuration timeline =
    if 0 < totalSpan timeline.segments then some (totalSpan timeline.segments) else none := by
  rw [edlDuration]
  cases segments : timeline.segments with
  | nil => simp [totalSpan]
  | cons segment rest => rfl

def rangeLength (timeline : Timeline) (start stop : ℚ) : ℚ :=
  max 0 (min stop ((edlDuration timeline).getD 0) - max start 0)

theorem totalSpan_nonneg (contiguous : Contiguous from_ segments) :
    0 ≤ totalSpan segments := by
  induction segments generalizing from_ with
  | nil => exact le_rfl
  | cons segment rest induction =>
      obtain ⟨rfl, forward, later⟩ := contiguous
      have nonnegative := induction later
      rw [totalSpan, List.map_cons, List.sum_cons, ← totalSpan]
      linarith

theorem edlDuration_getD (contiguous : Contiguous 0 timeline.segments) :
    (edlDuration timeline).getD 0 = totalSpan timeline.segments := by
  rw [edlDuration_eq]
  split
  · rfl
  · next none => exact (le_antisymm (not_lt.mp none) (totalSpan_nonneg contiguous)).symm

theorem mem_clip (contiguous : Contiguous 0 timeline.segments)
    (member : segment ∈ (clipTimeline timeline start stop).1.segments) :
    ∃ whole ∈ timeline.segments, ∃ part, whole.restrict start stop = some part ∧
      segment = part.earlier (max start 0) := by
  rw [clipTimeline_eq contiguous] at member
  obtain ⟨part, among, rfl⟩ := List.mem_map.mp member
  obtain ⟨whole, inside, restricted⟩ := List.mem_filterMap.mp among
  exact ⟨whole, inside, part, restricted, rfl⟩

theorem continuous_clip (contiguous : Contiguous 0 timeline.segments)
    (start stop : ℚ) : (clipTimeline timeline start stop).1.Continuous where
  contiguous := by
    have laid := contiguous_clip start stop contiguous le_rfl
    rw [lengthTo_zero] at laid
    rw [clipTimeline_eq contiguous]
    exact laid
  positive := by
    intro segment member
    obtain ⟨whole, _, part, restricted, rfl⟩ := mem_clip contiguous member
    obtain ⟨overlap, rfl⟩ := Segment.restrict_eq_some restricted
    exact sub_lt_sub_right overlap _

theorem rigid_clip (contiguous : Contiguous 0 timeline.segments)
    : ∀ segment ∈ (clipTimeline timeline start stop).1.segments, segment.Rigid := by
  intro segment member sourceId sourceStart sourceEnd named
  obtain ⟨whole, _, part, restricted, rfl⟩ := mem_clip contiguous member
  obtain ⟨overlap, rfl⟩ := Segment.restrict_eq_some restricted
  cases kind : whole.kind with
  | insert insert assetId assetVersion =>
      simp [Segment.earlier, Segment.kindWithin, kind] at named
  | source other otherStart otherEnd =>
      simp only [Segment.earlier, Segment.kindWithin, kind, Kind.source.injEq] at named
      obtain ⟨rfl, rfl, rfl⟩ := named
      refine ⟨_, rfl, add_lt_add_left overlap _, ?_⟩
      simp only [Segment.earlier]
      ring

theorem sourceCuts_clip (contiguous : Contiguous 0 timeline.segments)
    (start stop : ℚ) : (clipTimeline timeline start stop).2 =
      (clipTimeline timeline start stop).1.segments.filterMap Segment.sourceCut := by
  rw [clipTimeline_eq contiguous]
  dsimp only
  rw [List.filterMap_map]
  rfl

/-- The clip plays its range: it is laid out from zero and as long as the range within
the episode, plays at each instant what the episode plays, names its source spans, and
is made up of the clips of any two ranges that meet within it. -/
theorem clip_plays_its_range {timeline : Timeline} (continuous : timeline.Continuous)
    (start stop : ℚ) :
    (clipTimeline timeline start stop).1.Continuous ∧
    (∀ segment ∈ (clipTimeline timeline start stop).1.segments, segment.Rigid) ∧
    totalSpan (clipTimeline timeline start stop).1.segments = rangeLength timeline start stop ∧
    (0 ≤ start → ∀ instant, 0 ≤ instant → instant < rangeLength timeline start stop →
      servedToSource (clipTimeline timeline start stop).1 instant =
        servedToSource timeline (start + instant)) ∧
    (clipTimeline timeline start stop).2 =
      (clipTimeline timeline start stop).1.segments.filterMap Segment.sourceCut ∧
    ∀ middle, start < middle → middle < stop →
      Joins timeline.segments middle (playedBy (clipTimeline timeline start stop).1)
        (playedBy (clipTimeline timeline start middle).1)
        (playedBy (clipTimeline timeline middle stop).1) := by
  have contiguous := continuous.contiguous
  refine ⟨continuous_clip contiguous start stop, rigid_clip contiguous, ?_, ?_,
    sourceCuts_clip contiguous start stop, ?_⟩
  · have total := totalSpan_clip start stop contiguous le_rfl
    rw [lengthTo_zero, sub_zero, zero_add] at total
    rw [clipTimeline_eq contiguous, total, rangeLength, edlDuration_getD contiguous, lengthTo]
  · intro nonnegative instant above below
    refine servedToSource_clip contiguous nonnegative above ?_
    rw [rangeLength, edlDuration_getD contiguous, max_eq_left nonnegative] at below
    rcases lt_max_iff.mp below with negative | within
    · exact absurd negative (not_lt.mpr above)
    · linarith
  · intro middle rising falling
    rw [playedBy_clip contiguous, playedBy_clip contiguous, playedBy_clip contiguous]
    exact playedWithin_joins contiguous rising falling

/-- The clip of the edited episode from within its first part to within its last. -/
theorem clip_plays_its_range_edited :
    (∀ instant, 0 ≤ instant → instant < rangeLength edited 5 24 →
      servedToSource (clipTimeline edited 5 24).1 instant = servedToSource edited (5 + instant)) ∧
    rangeLength edited 5 24 = 19 := by
  have continuous : edited.Continuous := by
    refine ⟨wellFormed_edited.contiguous, ?_⟩
    intro segment member
    simp only [edited, List.mem_cons, List.not_mem_nil, or_false] at member
    rcases member with rfl | rfl | rfl | rfl <;> norm_num
  exact ⟨(clip_plays_its_range continuous 5 24).2.2.2.1 (by norm_num), by decide +kernel⟩

end CityPods.Audio
