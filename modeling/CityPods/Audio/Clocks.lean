import Mathlib.Tactic.Linarith
import Mathlib.Tactic.Ring
import CityPods.Audio.Timeline

/-! # Served and source clocks

On a timeline without gaps whose source spans are played at their own pace, the
two maps invert each other but for one instant at the end of a source.
-/

namespace CityPods.Audio

open Foundation
open Foundation.Pieces (Piece Ordered covering translate)

/-! ## Well-formed timelines -/

/-- Each segment begins where the one before it ends. -/
def Contiguous : ℚ → List Segment → Prop
  | _, [] => True
  | from_, segment :: rest =>
      segment.servedStart = from_ ∧ segment.servedStart ≤ segment.servedEnd ∧
        Contiguous segment.servedEnd rest

/-- The source span is as long as the served one, and not empty. -/
def Segment.Rigid (segment : Segment) : Prop :=
  ∀ sourceId sourceStart sourceEnd, segment.kind = .source sourceId sourceStart sourceEnd →
    ∃ stop, sourceEnd = some stop ∧ sourceStart < stop ∧
      segment.servedEnd - segment.servedStart = stop - sourceStart

/-- What the first takes from a source comes before what the second takes from it. -/
def Segment.Precedes (first second : Segment) : Prop :=
  ∀ sourceId start stop start' stop', first.kind = .source sourceId start (some stop) →
    second.kind = .source sourceId start' stop' → stop ≤ start'

structure Timeline.WellFormed (timeline : Timeline) : Prop where
  contiguous : Contiguous 0 timeline.segments
  rigid : ∀ segment ∈ timeline.segments, segment.Rigid
  increasing : timeline.segments.Pairwise Segment.Precedes

variable {from_ : ℚ} {segments : List Segment}

theorem Contiguous.start_le
    (contiguous : Contiguous from_ segments) : ∀ segment ∈ segments, from_ ≤ segment.servedStart := by
  induction segments generalizing from_ with
  | nil => exact fun _ member => by cases member
  | cons head rest induction =>
      obtain ⟨begins, ordered, later⟩ := contiguous
      intro segment member
      rcases List.mem_cons.mp member with rfl | within
      · exact begins.ge
      · exact begins.ge.trans (ordered.trans (induction later segment within))

theorem Contiguous.disjoint (contiguous : Contiguous from_ segments) :
    Pieces.Disjoint Segment.servedStart Segment.servedEnd segments := by
  induction segments generalizing from_ with
  | nil => exact .nil
  | cons head rest induction =>
      obtain ⟨_, _, later⟩ := contiguous
      exact .cons later.start_le (induction later)

variable {segment : Segment}

/-- The segment after another begins where that one ends. -/
theorem Contiguous.next {before after : List Segment} {next : Segment}
    (contiguous : Contiguous from_ (before ++ segment :: next :: after)) :
    next.servedStart = segment.servedEnd := by
  induction before generalizing from_ with
  | nil => exact contiguous.2.2.1
  | cons head rest induction => exact induction contiguous.2.2

/-! ## The spans of one source -/

def SourceSegment.ofPiece (piece : Piece ℚ) : SourceSegment :=
  ⟨piece.image, piece.imageStop, piece.start, some piece.stop⟩

variable {sourceId : Option String} {kept : SourceSegment}

theorem ofSource?_eq_some
    (found : segment.ofSource? sourceId = some kept) : ∃ id, sourceId = some id ∧
      segment.kind = .source id kept.sourceStart kept.sourceEnd ∧
      segment.servedStart = kept.servedStart ∧ segment.servedEnd = kept.servedEnd := by
  unfold Segment.ofSource? at found
  split at found
  · next id start stop kind =>
    split at found
    · next same =>
      cases found
      exact ⟨id, same, kind, rfl, rfl⟩
    · cases found
  · cases found

theorem Segment.Rigid.piece (rigid : segment.Rigid)
    (found : segment.ofSource? sourceId = some kept) :
    ∃ piece, kept = .ofPiece piece := by
  obtain ⟨id, _, kind, begins, ends⟩ := ofSource?_eq_some found
  obtain ⟨stop, known, positive, same⟩ := rigid id _ _ kind
  rw [begins, ends] at same
  refine ⟨⟨kept.sourceStart, stop, kept.servedStart, kept.servedEnd, positive, same⟩, ?_⟩
  obtain ⟨servedStart, servedEnd, sourceStart, sourceEnd⟩ := kept
  cases known
  rfl

variable {timeline : Timeline}

/-- The spans of one source in a row. -/
theorem Timeline.WellFormed.pieces (wellFormed : timeline.WellFormed)
    (sourceId : Option String) : ∃ pieces : List (Piece ℚ),
      sourceSegments timeline sourceId = pieces.map .ofPiece ∧ Ordered pieces := by
  obtain ⟨contiguous, rigid, increasing⟩ := wellFormed
  have disjoint := contiguous.disjoint
  clear contiguous
  unfold sourceSegments
  generalize timeline.segments = segments at rigid increasing disjoint ⊢
  induction segments with
  | nil => exact ⟨[], rfl, .nil⟩
  | cons segment rest induction =>
      have apart := List.pairwise_cons.mp increasing
      have served := List.pairwise_cons.mp disjoint
      obtain ⟨pieces, spans, ordered⟩ := induction
        (fun segment member => rigid segment (List.mem_cons_of_mem _ member)) apart.2 served.2
      cases found : segment.ofSource? sourceId with
      | none => exact ⟨pieces, by rw [List.filterMap_cons_none found, spans], ordered⟩
      | some kept =>
          obtain ⟨piece, rfl⟩ := (rigid segment List.mem_cons_self).piece found
          refine ⟨piece :: pieces, by rw [List.filterMap_cons_some found, spans, List.map_cons],
            .cons (fun other member => ?_) ordered⟩
          have among : SourceSegment.ofPiece other ∈ rest.filterMap (Segment.ofSource? sourceId) :=
            spans ▸ List.mem_map_of_mem member
          obtain ⟨later, within, taken⟩ := List.mem_filterMap.mp among
          obtain ⟨id, named, kind, _, ends⟩ := ofSource?_eq_some found
          obtain ⟨other_, also, kind', begins, _⟩ := ofSource?_eq_some taken
          cases named.symm.trans also
          constructor
          · exact apart.1 later within id _ _ _ _ kind kind'
          · have heard := served.1 later within
            rw [ends, begins] at heard
            exact heard

theorem servedIn_pieces (pieces : List (Piece ℚ)) (instant : ℚ) :
    servedIn instant (pieces.map .ofPiece) = .ok (translate pieces instant) := by
  induction pieces with
  | nil => rfl
  | cons piece rest induction =>
      rw [List.map_cons, servedIn, List.isEmpty_map]
      unfold Pieces.translate Pieces.pieceAt
      rw [covering]
      by_cases above : piece.start ≤ instant
      · have span : (SourceSegment.ofPiece piece).inSpan instant rest.isEmpty =
            .ok (if rest.isEmpty then decide (instant ≤ piece.stop)
              else decide (instant < piece.stop)) := by
          rw [SourceSegment.inSpan, if_pos (by exact above)]
          rfl
        rw [span]
        by_cases inside : if rest.isEmpty then instant ≤ piece.stop else instant < piece.stop
        · have true_ : (if rest.isEmpty then decide (instant ≤ piece.stop)
              else decide (instant < piece.stop)) = true := by
            split at inside <;> simp [*]
          rw [true_, if_pos ⟨above, inside⟩]
          rfl
        · have false_ : (if rest.isEmpty then decide (instant ≤ piece.stop)
              else decide (instant < piece.stop)) = false := by
            split at inside <;> simp [*]
          rw [false_, if_neg fun both => inside both.2]
          exact induction
      · have span : (SourceSegment.ofPiece piece).inSpan instant rest.isEmpty = .ok false := by
          rw [SourceSegment.inSpan, if_neg (by exact above)]
        rw [span, if_neg fun both => above both.1]
        exact induction

theorem sourceToServed_pieces
    {pieces : List (Piece ℚ)} (spans : sourceSegments timeline sourceId = pieces.map .ofPiece)
    (instant : ℚ) : sourceToServed timeline sourceId instant = .ok (translate pieces instant) := by
  rw [sourceToServed, spans, servedIn_pieces]

/-! ## The two clocks -/

/-- The instant at which a source ends and another segment begins. -/
def AtSeam (timeline : Timeline) (sourceId : String) (source served : ℚ) : Prop :=
  ∃ before segment next after, timeline.segments = before ++ segment :: next :: after ∧
    next.servedStart = served ∧
    (∃ start, segment.kind = .source sourceId start (some source)) ∧
    ∀ other ∈ next :: after, ∀ start stop, other.kind ≠ .source sourceId start stop

section

variable {timeline : Timeline} {sourceId : String} {source served : ℚ}

theorem servedToSource_eq_some (mapped : servedToSource timeline served = some (sourceId, source)) :
    ∃ segment start stop, segment.kind = .source sourceId start stop ∧
      covering Segment.servedStart Segment.servedEnd served timeline.segments = some segment ∧
        source = start + (served - segment.servedStart) := by
  obtain ⟨segment, found, taken⟩ := Option.bind_eq_some_iff.mp mapped
  split at taken
  · cases taken
  · next id start stop kind =>
    cases taken
    exact ⟨segment, start, stop, kind, found, rfl⟩

variable {start : ℚ} {stop : Option ℚ}

theorem ofSource?_of_kind (kind : segment.kind = .source sourceId start stop) :
    segment.ofSource? (some sourceId) =
      some ⟨segment.servedStart, segment.servedEnd, start, stop⟩ := by
  rw [Segment.ofSource?, kind]
  exact if_pos rfl

theorem sourceToServed_servedToSource (wellFormed : timeline.WellFormed)
    (mapped : servedToSource timeline served = some (sourceId, source)) :
    sourceToServed timeline (some sourceId) source = .ok (some served) := by
  obtain ⟨segment, start, stop, kind, found, rfl⟩ := servedToSource_eq_some mapped
  obtain ⟨before, after, row, above, below, inner⟩ := Pieces.covering_eq_some found
  obtain ⟨pieces, spans, ordered⟩ := wellFormed.pieces (some sourceId)
  have taken := ofSource?_of_kind kind
  have split_ : sourceSegments timeline (some sourceId) =
      before.filterMap (Segment.ofSource? (some sourceId)) ++
        ⟨segment.servedStart, segment.servedEnd, start, stop⟩ ::
          after.filterMap (Segment.ofSource? (some sourceId)) := by
    rw [sourceSegments, row, List.filterMap_append, List.filterMap_cons_some taken]
  obtain ⟨front, behind, rfl, _, later⟩ := List.map_eq_append_iff.mp (spans.symm.trans split_)
  obtain ⟨piece, back, rfl, same, rest⟩ := List.map_eq_cons_iff.mp later
  obtain ⟨begins, ends, starts, _⟩ := SourceSegment.mk.inj same
  have rigid := piece.rigid
  rw [sourceToServed_pieces spans, Pieces.translate, Pieces.pieceAt, Pieces.covering_append ordered.disjoint]
  · rw [Option.map_some, Piece.move, begins, starts]
    congr 2
    ring
  · linarith
  · linarith
  · intro more
    have strict := inner fun none_ => more (List.map_eq_nil_iff.mp (rest.trans (by rw [none_]; rfl)))
    linarith

theorem segment_of_piece {front back : List (Piece ℚ)} {piece : Piece ℚ}
    (spans : sourceSegments timeline (some sourceId) =
      (front ++ piece :: back).map SourceSegment.ofPiece) :
    ∃ before segment after, timeline.segments = before ++ segment :: after ∧
      segment.kind = .source sourceId piece.start (some piece.stop) ∧
      segment.servedStart = piece.image ∧ segment.servedEnd = piece.imageStop ∧
      after.filterMap (Segment.ofSource? (some sourceId)) = back.map SourceSegment.ofPiece := by
  rw [List.map_append, List.map_cons] at spans
  obtain ⟨before, rest, row, _, later⟩ := List.filterMap_eq_append_iff.mp spans
  obtain ⟨skipped, segment, after, rfl, _, taken, remaining⟩ := List.filterMap_eq_cons_iff.mp later
  obtain ⟨id, named, kind, begins, ends⟩ := ofSource?_eq_some taken
  cases named
  exact ⟨before ++ skipped, segment, after, by rw [row, List.append_assoc], kind, begins, ends,
    remaining⟩

theorem servedToSource_of_covering (kind : segment.kind = .source sourceId start stop)
    (found : covering Segment.servedStart Segment.servedEnd served timeline.segments =
      some segment) :
    servedToSource timeline served =
      some (sourceId, start + (served - segment.servedStart)) := by
  rw [servedToSource, found, Option.bind_some, kind]

theorem ofSource?_eq_none {other : Segment}
    (none_ : other.ofSource? (some sourceId) = none) (start : ℚ) (stop : Option ℚ) :
    other.kind ≠ .source sourceId start stop := by
  intro kind
  rw [ofSource?_of_kind kind] at none_
  cases none_

theorem servedToSource_sourceToServed (wellFormed : timeline.WellFormed)
    (mapped : sourceToServed timeline (some sourceId) source = .ok (some served))
    (inner : ¬ AtSeam timeline sourceId source served) :
    servedToSource timeline served = some (sourceId, source) := by
  obtain ⟨pieces, spans, ordered⟩ := wellFormed.pieces (some sourceId)
  rw [sourceToServed_pieces spans] at mapped
  obtain ⟨piece, found, rfl⟩ := Pieces.translate_eq_some (Except.ok.inj mapped)
  obtain ⟨front, back, rfl, above, below, within⟩ := Pieces.covering_eq_some found
  obtain ⟨before, segment, after, row, kind, begins, ends, remaining⟩ := segment_of_piece spans
  have disjoint := wellFormed.contiguous.disjoint
  have back_ : piece.start + (piece.move source - segment.servedStart) = source := by
    rw [begins, Piece.move]
    ring
  have least : segment.servedStart ≤ piece.move source := by
    rw [begins, ← piece.move_start, piece.move_le_move]
    exact above
  have most : piece.move source ≤ segment.servedEnd := by
    rw [ends, ← piece.move_stop, piece.move_le_move]
    exact below
  rw [row] at disjoint
  have strict (more : after ≠ []) : piece.move source < segment.servedEnd := by
    refine lt_of_le_of_ne most fun end_ => ?_
    obtain ⟨next, later, rfl⟩ := List.exists_cons_of_ne_nil more
    have contiguous := wellFormed.contiguous
    rw [row] at contiguous
    have ended : source = piece.stop := by
      have same : piece.move source = piece.move piece.stop := by rw [end_, ends, piece.move_stop]
      rw [Piece.move, Piece.move] at same
      linarith
    have last : back = [] := by
      by_contra more
      exact absurd (within more) (by rw [ended]; exact lt_irrefl _)
    refine inner ⟨before, segment, next, later, row, ?_, ⟨piece.start, ?_⟩, ?_⟩
    · rw [contiguous.next, end_]
    · rw [kind, ended]
    · intro other member start stop
      refine ofSource?_eq_none ?_ start stop
      rw [last] at remaining
      exact List.filterMap_eq_nil_iff.mp remaining other member
  have covered := Pieces.covering_append disjoint least most strict
  rw [← row] at covered
  rw [servedToSource_of_covering kind covered, back_]

theorem servedToSource_ne_of_atSeam (wellFormed : timeline.WellFormed)
    (seam : AtSeam timeline sourceId source served) :
    servedToSource timeline served ≠ some (sourceId, source) := by
  intro mapped
  obtain ⟨segment, start, stop, kind, found, _⟩ := servedToSource_eq_some mapped
  obtain ⟨before, ended, next, after, row, rfl, _, none_⟩ := seam
  have disjoint := wellFormed.contiguous.disjoint
  obtain ⟨front, back, also, _, _, inner⟩ := Pieces.covering_eq_some found
  have late : segment ∉ next :: after := fun member => none_ segment member start stop kind
  have early : segment ∈ before ++ [ended] := by
    have member := Pieces.mem_of_covering found
    rw [row, List.append_cons] at member
    exact (List.mem_append.mp member).resolve_right late
  have more : back ≠ [] := by
    rintro rfl
    have last : timeline.segments.getLast? = some segment := by rw [also]; simp
    rw [row, List.getLast?_append, List.getLast?_cons_cons] at last
    have within := List.mem_of_getLast? (Option.or_eq_some_iff.mp last |>.resolve_right (by simp))
    exact late within
  rw [row, List.append_cons] at disjoint
  have before_ := (List.pairwise_append.mp disjoint).2.2 segment early next List.mem_cons_self
  exact absurd (inner more) (not_lt.mpr before_)

end

/-- The maps between served and source time invert each other, save at the end of
a source where another segment begins, and both keep the order of instants. -/
theorem clocks_invert {timeline : Timeline} (wellFormed : timeline.WellFormed) :
    (∀ sourceId source served, servedToSource timeline served = some (sourceId, source) →
      sourceToServed timeline (some sourceId) source = .ok (some served)) ∧
    (∀ sourceId source served,
      sourceToServed timeline (some sourceId) source = .ok (some served) →
        (servedToSource timeline served = some (sourceId, source) ↔
          ¬ AtSeam timeline sourceId source served)) ∧
    (∀ sourceId source source' served served',
      sourceToServed timeline (some sourceId) source = .ok (some served) →
      sourceToServed timeline (some sourceId) source' = .ok (some served') →
        source < source' → served < served') ∧
    ∀ sourceId source source' served served',
      servedToSource timeline served = some (sourceId, source) →
      servedToSource timeline served' = some (sourceId, source') →
        served < served' → source < source' := by
  have increasing (sourceId : String) (source source' served served' : ℚ)
      (mapped : sourceToServed timeline (some sourceId) source = .ok (some served))
      (also : sourceToServed timeline (some sourceId) source' = .ok (some served'))
      (earlier : source < source') : served < served' := by
    obtain ⟨pieces, spans, ordered⟩ := wellFormed.pieces (some sourceId)
    rw [sourceToServed_pieces spans] at mapped also
    exact Pieces.translate_lt ordered (Except.ok.inj mapped) (Except.ok.inj also) earlier
  refine ⟨fun _ _ _ => sourceToServed_servedToSource wellFormed, ?_, increasing, ?_⟩
  · intro sourceId source served mapped
    exact ⟨fun same seam => servedToSource_ne_of_atSeam wellFormed seam same,
      servedToSource_sourceToServed wellFormed mapped⟩
  · intro sourceId source source' served served' mapped also earlier
    have there := sourceToServed_servedToSource wellFormed mapped
    have back := sourceToServed_servedToSource wellFormed also
    rcases lt_trichotomy source source' with before | rfl | after
    · exact before
    · cases there.symm.trans back
      exact absurd earlier (lt_irrefl _)
    · exact absurd earlier (increasing sourceId _ _ _ _ back there after).not_gt

def edited : Timeline where
  version := "v1"
  segments := [
    ⟨0, 10, .source "first" 0 (some 10)⟩,
    ⟨10, 12, .insert "gap" none none⟩,
    ⟨12, 22, .source "first" 20 (some 30)⟩,
    ⟨22, 27, .source "second" 0 (some 5)⟩]

theorem wellFormed_edited : edited.WellFormed where
  contiguous := by simp only [edited, Contiguous]; norm_num
  rigid := by
    intro segment member sourceId sourceStart sourceEnd kind
    simp only [edited, List.mem_cons, List.not_mem_nil, or_false] at member
    rcases member with rfl | rfl | rfl | rfl <;> cases kind
    · exact ⟨10, rfl, by norm_num, by norm_num⟩
    · exact ⟨30, rfl, by norm_num, by norm_num⟩
    · exact ⟨5, rfl, by norm_num, by norm_num⟩
  increasing := by
    simp only [edited, List.pairwise_cons, List.mem_cons, List.not_mem_nil, or_false]
    refine ⟨?_, ?_, ?_, ?_, .nil⟩ <;> rintro later member sourceId start stop start' stop' kind kind'
    · cases kind
      rcases member with rfl | rfl | rfl
      · cases kind'
      · cases kind'
        norm_num
      · exact absurd (Kind.source.inj kind').1 (by decide)
    · cases kind
    · cases kind
      cases member
      exact absurd (Kind.source.inj kind').1 (by decide)
    · cases member

theorem clocks_invert_edited : servedToSource edited 17 = some ("first", 25) ∧
    sourceToServed edited (some "first") 25 = .ok (some 17) :=
  ⟨by decide +kernel, (clocks_invert wellFormed_edited).1 "first" 25 17 (by decide +kernel)⟩

end CityPods.Audio
