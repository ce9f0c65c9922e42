import CityPods.Audio.Clocks

/-! # Remapping keeps items in order

When remapped items follow each other and stay within the episode: always, but
for an item that lies in one removed stretch and is snapped out of it.
-/

namespace CityPods.Audio

open Foundation
open Foundation.Pieces (Piece Ordered translate landing begun)

/-! ## The clock of the episode -/

theorem Contiguous.le_total {from_ : ℚ} {segments : List Segment}
    (contiguous : Contiguous from_ segments) :
    from_ ≤ from_ + (segments.map fun segment => segment.servedEnd - segment.servedStart).sum ∧
      ∀ segment ∈ segments, segment.servedEnd ≤
        from_ + (segments.map fun segment => segment.servedEnd - segment.servedStart).sum := by
  induction segments generalizing from_ with
  | nil => exact ⟨by simp, fun _ member => by cases member⟩
  | cons head rest induction =>
      obtain ⟨begins, forward, later⟩ := contiguous
      obtain ⟨least, within⟩ := induction later
      rw [List.map_cons, List.sum_cons]
      refine ⟨by linarith, fun segment member => ?_⟩
      rcases List.mem_cons.mp member with rfl | inside
      · linarith
      · have bound := within segment inside
        linarith

section

variable {timeline : Timeline} {sourceId : Option String} {pieces : List (Piece ℚ)}

theorem edlDuration_of_piece (wellFormed : timeline.WellFormed)
    (spans : sourceSegments timeline sourceId = pieces.map .ofPiece) {piece : Piece ℚ}
    (member : piece ∈ pieces) : ∃ duration, edlDuration timeline = some duration ∧
      ∀ other ∈ pieces, other.imageStop ≤ duration := by
  obtain ⟨_, within⟩ := wellFormed.contiguous.le_total
  have least := wellFormed.contiguous.start_le
  have segment {other : Piece ℚ} (among : other ∈ pieces) : ∃ segment ∈ timeline.segments,
      segment.servedStart = other.image ∧ segment.servedEnd = other.imageStop := by
    have there : SourceSegment.ofPiece other ∈ sourceSegments timeline sourceId :=
      spans ▸ List.mem_map_of_mem among
    obtain ⟨segment, inside, taken⟩ := List.mem_filterMap.mp there
    obtain ⟨_, _, _, begins, ends⟩ := ofSource?_eq_some taken
    exact ⟨segment, inside, begins, ends⟩
  obtain ⟨heard, inside, begins, ends⟩ := segment member
  have start := least heard inside
  have stop := within heard inside
  rw [zero_add] at stop
  have positive := piece.image_lt
  refine ⟨(timeline.segments.map fun segment => segment.servedEnd - segment.servedStart).sum, ?_,
    fun other among => ?_⟩
  · have nonempty : ¬ timeline.segments.isEmpty = true := by
      intro empty
      rw [List.isEmpty_iff.mp empty] at inside
      cases inside
    unfold edlDuration
    rw [if_neg nonempty]
    exact if_pos (by linarith)
  · obtain ⟨later, there, _, same⟩ := segment among
    have bound := within later there
    rwa [zero_add, same] at bound

/-! ## What becomes of an item -/

theorem sorted_of_pieces (spans : sourceSegments timeline sourceId = pieces.map .ofPiece)
    (ordered : Ordered pieces) : sortedSegments timeline sourceId = pieces.map .ofPiece := by
  rw [sortedSegments, spans]
  refine List.Pairwise.insertionSort_eq (List.pairwise_map.mpr (ordered.imp ?_))
  intro first second apart
  exact first.positive.le.trans apart.1

theorem nextKeptBoundary_pieces (spans : sourceSegments timeline sourceId = pieces.map .ofPiece)
    (ordered : Ordered pieces) (instant : ℚ) :
    nextKeptBoundary timeline sourceId instant =
      (Pieces.next instant pieces).map Piece.image := by
  rw [nextKeptBoundary, sorted_of_pieces spans ordered, List.find?_map, Option.map_map]
  rfl

theorem lastServedEnd_pieces (pieces : List (Piece ℚ)) (instant : ℚ) :
    lastServedEnd instant (pieces.map .ofPiece) = (begun instant pieces).map Piece.imageStop := by
  induction pieces with
  | nil => rfl
  | cons piece rest induction =>
      rw [List.map_cons, lastServedEnd, begun, induction]
      by_cases above : piece.start ≤ instant
      · rw [if_pos above, if_pos (by exact above)]
        cases begun instant rest <;> rfl
      · rw [if_neg above, if_neg (by exact above)]
        rfl

/-- Where the end of an item goes. -/
def ending (clampTo : Option ℚ) (pieces : List (Piece ℚ)) : Option ℚ → Option ℚ
  | none => none
  | some instant => (translate pieces instant).or
      (clampTo.map fun duration => ((begun instant pieces).map Piece.imageStop).getD duration)

variable {α : Type} {clampTo : Option ℚ} {snaps : Bool}

def moved (clampTo : Option ℚ) (snaps : Bool) (pieces : List (Piece ℚ)) (item : Item α) :
    Option (Item α) :=
  (landing snaps pieces item.start).map fun start =>
    { item with start := start, stop := ending clampTo pieces item.stop }

theorem remapStart_pieces (spans : sourceSegments timeline sourceId = pieces.map .ofPiece)
    (ordered : Ordered pieces) (instant : ℚ) :
    remapStart timeline sourceId snaps instant = .ok (landing snaps pieces instant) := by
  rw [remapStart, sourceToServed_pieces spans, landing]
  cases found : translate pieces instant with
  | some served => rfl
  | none =>
      show Except.ok _ = _
      rw [nextKeptBoundary_pieces spans ordered]
      rfl

theorem remapStop_pieces (spans : sourceSegments timeline sourceId = pieces.map .ofPiece)
    (ordered : Ordered pieces) (stop : Option ℚ) :
    remapStop timeline sourceId clampTo stop = .ok (ending clampTo pieces stop) := by
  cases stop with
  | none => rfl
  | some instant =>
      show (sourceToServed timeline sourceId instant >>= _) = _
      rw [sourceToServed_pieces spans, ending]
      cases found : translate pieces instant with
      | some served => rfl
      | none =>
          cases clampTo with
          | none => rfl
          | some duration =>
              show Except.ok _ = _
              rw [nearestCutBoundary, sorted_of_pieces spans ordered, lastServedEnd_pieces]
              rfl

theorem remapItems_pieces (spans : sourceSegments timeline sourceId = pieces.map .ofPiece)
    (ordered : Ordered pieces) (items : List (Item α)) :
    remapItems timeline sourceId clampTo snaps items =
      .ok (items.filterMap (moved clampTo snaps pieces)) := by
  induction items with
  | nil => rfl
  | cons item rest induction =>
      rw [remapItems, remapStart_pieces spans ordered]
      cases landed : landing snaps pieces item.start with
      | none =>
          have dropped : moved clampTo snaps pieces item = none := by rw [moved, landed]; rfl
          rw [List.filterMap_cons_none dropped]
          exact induction
      | some start =>
          have kept : moved clampTo snaps pieces item =
              some { item with start := start, stop := ending clampTo pieces item.stop } := by
            rw [moved, landed]
            rfl
          rw [List.filterMap_cons_some kept, remapStop_pieces spans ordered, induction]
          rfl

/-! ## Items in order -/

/-- The other item begins no earlier, and not before this one has ended. -/
def Item.Follows (item other : Item α) : Prop :=
  item.start ≤ other.start ∧ ∀ stop, item.stop = some stop → stop ≤ other.start

/-- Sorted items that do not overlap, none of which ends before it begins. -/
def InOrder (items : List (Item α)) : Prop :=
  items.Pairwise Item.Follows ∧ ∀ item ∈ items, ∀ stop, item.stop = some stop → item.start ≤ stop

/-- Each item follows the one before it and lies within the episode. -/
def Orderly (timeline : Timeline) (items : List (Item α)) : Prop :=
  items.IsChain Item.Follows ∧ ∀ item ∈ items, ∀ stop, item.stop = some stop →
    item.start ≤ stop ∧ ∃ duration, edlDuration timeline = some duration ∧ stop ≤ duration

theorem Item.Follows.trans {first second third : Item α} (earlier : first.Follows second)
    (later : second.Follows third) : first.Follows third :=
  ⟨earlier.1.trans later.1, fun stop known => (earlier.2 stop known).trans later.1⟩

instance : Trans (Item.Follows : Item α → Item α → Prop) Item.Follows Item.Follows where
  trans := Item.Follows.trans

/-- The instant is not before the end of the source, and at that end only if the
episode ends there too. -/
def Outlived (timeline : Timeline) (sourceId : Option String) (instant : ℚ) : Prop :=
  ∀ last, (sourceSegments timeline sourceId).getLast? = some last →
    ∀ stop, last.sourceEnd = some stop → stop ≤ instant ∧
      (instant = stop → edlDuration timeline = some last.servedEnd)

/-- An item in one removed stretch: either the stretch is inside, and nothing is
inserted in its place, or no later item begins within the source. -/
def Housed (timeline : Timeline) (sourceId : Option String) (items : List (Item α)) : Prop :=
  ∀ earlier item later, items = earlier ++ item :: later → ∀ stop, item.stop = some stop →
    sourceToServed timeline sourceId item.start = .ok none →
      ∀ front next back, sourceSegments timeline sourceId = front ++ next :: back →
        (∀ segment ∈ front, segment.sourceStart ≤ item.start) → stop < next.sourceStart →
          (∀ previous, front.getLast? = some previous → previous.servedEnd = next.servedStart) ∧
            (front = [] → ∀ other ∈ later, Outlived timeline sourceId other.start)

variable {item other result after : Item α}

theorem moved_eq_some (left : moved clampTo snaps pieces item = some result) :
    landing snaps pieces item.start = some result.start ∧
      result.stop = ending clampTo pieces item.stop := by
  obtain ⟨start, landed, rfl⟩ := Option.map_eq_some_iff.mp left
  exact ⟨landed, rfl⟩

variable {image : ℚ}

theorem moved_of_landing (landed : landing snaps pieces item.start = some image) :
    ∃ result, moved clampTo snaps pieces item = some result ∧ result.start = image ∧
      result.stop = ending clampTo pieces item.stop := by
  rw [moved, landed]
  exact ⟨_, rfl, rfl, rfl⟩

/-- An end is moved with its piece, to the end of the piece before it, or, before
the first piece, to the end of the episode. -/
theorem ending_eq_some {stop : Option ℚ}
    (ends : ending clampTo pieces stop = some image) : ∃ instant, stop = some instant ∧
      (translate pieces instant = some image ∨ (translate pieces instant = none ∧
        ((∃ piece, begun instant pieces = some piece ∧ piece.imageStop = image ∧ clampTo ≠ none) ∨
          (begun instant pieces = none ∧ clampTo = some image)))) := by
  cases stop with
  | none => cases ends
  | some instant =>
      refine ⟨instant, rfl, ?_⟩
      rcases Option.or_eq_some_iff.mp ends with kept | ⟨removed, clamped⟩
      · exact .inl kept
      · refine .inr ⟨removed, ?_⟩
        obtain ⟨duration, known, given⟩ := Option.map_eq_some_iff.mp clamped
        cases found : begun instant pieces with
        | none =>
            rw [found] at given
            cases given
            exact .inr ⟨rfl, known⟩
        | some piece =>
            rw [found] at given
            cases given
            exact .inl ⟨piece, rfl, rfl, by simp [known]⟩

variable {instant : ℚ} {piece : Piece ℚ}

variable {front back : List (Piece ℚ)}

/-- Where a removed item is cut out, in the row of pieces. -/
theorem next_append
    (row : pieces = front ++ piece :: back) (above : ∀ other ∈ front, other.start ≤ instant)
    (beyond : instant < piece.start) : Pieces.next instant pieces = some piece := by
  rw [Pieces.next, List.find?_eq_some_iff_append]
  refine ⟨by simpa using beyond, front, back, row, fun other member => ?_⟩
  simpa using above other member

theorem append_of_next (found : Pieces.next instant pieces = some piece) :
    ∃ front back, pieces = front ++ piece :: back ∧ (∀ other ∈ front, other.start ≤ instant) ∧
      instant < piece.start := by
  obtain ⟨beyond, front, back, row, above⟩ := List.find?_eq_some_iff_append.mp found
  exact ⟨front, back, row, fun other member => by simpa using above other member,
    by simpa using beyond⟩

/-- After the end of a source, an instant lands at the end of the episode or nowhere. -/
theorem landing_of_outlived
    (spans : sourceSegments timeline sourceId = pieces.map .ofPiece) (ordered : Ordered pieces)
    {duration : ℚ} (outlived : Outlived timeline sourceId instant)
    (whole : edlDuration timeline = some duration)
    (landed : landing snaps pieces instant = some image) : duration ≤ image := by
  have last {piece : Piece ℚ} (found : pieces.getLast? = some piece) : piece.stop ≤ instant ∧
      (instant = piece.stop → edlDuration timeline = some piece.imageStop) := by
    refine outlived (.ofPiece piece) ?_ piece.stop rfl
    rw [spans, List.getLast?_map, found]
    rfl
  rcases Pieces.landing_eq_some landed with ⟨piece, found, rfl⟩ | ⟨_, _, piece, found, rfl⟩
  · obtain ⟨front, back, rfl, above, below, inner⟩ := Pieces.covering_eq_some found
    have single : back = [] := by
      by_contra more
      obtain ⟨final, ends⟩ : ∃ final, back.getLast? = some final :=
        ⟨_, List.getLast?_eq_some_getLast more⟩
      have at_ : (front ++ piece :: back).getLast? = some final := by
        rw [List.getLast?_append, List.getLast?_cons, ends]
        rfl
      have parts := List.pairwise_append.mp ordered
      have apart := (List.pairwise_cons.mp parts.2.1).1 final (List.mem_of_getLast? ends)
      have beyond := (last at_).1
      have positive := final.positive
      have strict := inner more
      linarith [apart.1]
    subst single
    obtain ⟨least, exactly⟩ := last List.getLast?_concat
    have same : instant = piece.stop := le_antisymm below least
    rw [exactly same] at whole
    cases whole
    rw [same, piece.move_stop]
  · obtain ⟨member, beyond⟩ := Pieces.next_eq_some found
    obtain ⟨final, ends⟩ : ∃ final, pieces.getLast? = some final :=
      ⟨_, List.getLast?_eq_some_getLast (List.ne_nil_of_mem member)⟩
    have least := (last ends).1
    have positive := final.positive
    rcases le_or_gt final.start piece.start with early | late
    · have stops : piece.stop ≤ final.stop := by
        obtain ⟨initial, rfl⟩ := List.getLast?_eq_some_iff.mp ends
        rcases List.mem_append.mp member with inside | single
        · have apart := (List.pairwise_append.mp ordered).2.2 piece inside final List.mem_cons_self
          linarith [apart.1]
        · cases List.mem_singleton.mp single
          exact le_refl _
      have begins := piece.positive
      linarith
    · linarith

variable {final : Piece ℚ}

theorem landing_lt_last (ordered : Ordered pieces)
    (ends : pieces.getLast? = some final) (before : instant < final.stop) :
    ∃ image, landing true pieces instant = some image ∧ image < final.imageStop := by
  have member := List.mem_of_getLast? ends
  have most {piece : Piece ℚ} (among : piece ∈ pieces) (earlier : piece.start < final.start) :
      piece.imageStop < final.imageStop :=
    (ordered.before among member earlier).2.trans_lt final.image_lt
  rcases le_or_gt final.start instant with above | beyond
  · have covered := Pieces.covering_of_mem ordered.disjoint member above before
    refine ⟨final.move instant, Pieces.landing_of_translate ?_, ?_⟩
    · rw [Pieces.translate, Pieces.pieceAt, covered, Option.map_some]
    · rwa [← final.move_stop, final.move_lt_move]
  · cases moved : translate pieces instant with
    | some image =>
        obtain ⟨piece, found, rfl⟩ := Pieces.translate_eq_some moved
        obtain ⟨among, begins, _⟩ := Pieces.over_bounds found
        exact ⟨_, Pieces.landing_of_translate moved,
          (Pieces.move_mem found).2.trans_lt (most among (begins.trans_lt beyond))⟩
    | none =>
        obtain ⟨piece, found⟩ := Option.isSome_iff_exists.mp (Pieces.next_isSome member beyond)
        refine ⟨piece.image, by rw [landing, moved, found]; rfl, ?_⟩
        have least := ordered.next_le found member beyond
        exact (ordered.image_le (Pieces.next_eq_some found).1 member least).trans_lt final.image_lt

/-- At the end of a source lies the end of its last piece. -/
theorem landing_stop (ordered : Ordered pieces) (ends : pieces.getLast? = some final) :
    landing snaps pieces final.stop = some final.imageStop := by
  obtain ⟨front, rfl⟩ := List.getLast?_eq_some_iff.mp ends
  have covered := Pieces.covering_append ordered.disjoint final.positive.le le_rfl
    fun more => absurd rfl more
  refine Pieces.landing_of_translate ?_
  rw [Pieces.translate, Pieces.pieceAt, covered, Option.map_some, final.move_stop]

/-! ## One item and those after it -/

/-- What `Housed` says of one item. -/
def HousedAt (timeline : Timeline) (sourceId : Option String) (pieces : List (Piece ℚ))
    (item : Item α) (later : List (Item α)) : Prop :=
  ∀ stop, item.stop = some stop → translate pieces item.start = none →
    ∀ front next back, pieces = front ++ next :: back →
      (∀ piece ∈ front, piece.start ≤ item.start) → stop < next.start →
        (∀ previous, front.getLast? = some previous → previous.imageStop = next.image) ∧
          (front = [] → ∀ other ∈ later, Outlived timeline sourceId other.start)

theorem housed_iff (spans : sourceSegments timeline sourceId = pieces.map .ofPiece)
    (items : List (Item α)) : Housed timeline sourceId items ↔
      ∀ earlier item later, items = earlier ++ item :: later →
        HousedAt timeline sourceId pieces item later := by
  constructor
  · intro housed earlier item later row stop known removed front next back split_ above beyond
    have all := housed earlier item later row stop known
      (by rw [sourceToServed_pieces spans, removed]) (front.map .ofPiece) (.ofPiece next)
      (back.map .ofPiece) (by rw [spans, split_, List.map_append, List.map_cons])
    obtain ⟨seam, alone⟩ := all (by simpa [SourceSegment.ofPiece] using above) beyond
    refine ⟨fun previous last => seam (.ofPiece previous) ?_, fun empty => alone (by rw [empty]; rfl)⟩
    rw [List.getLast?_map, last]
    rfl
  · intro housed earlier item later row stop known removed front next back split_ above beyond
    rw [sourceToServed_pieces spans] at removed
    obtain ⟨front, rest, rfl, rfl, after⟩ := List.map_eq_append_iff.mp (spans.symm.trans split_)
    obtain ⟨next, back, rfl, rfl, rfl⟩ := List.map_eq_cons_iff.mp after
    obtain ⟨seam, alone⟩ := housed earlier item later row stop known (Except.ok.inj removed) front
      next back rfl (by simpa [SourceSegment.ofPiece] using above) beyond
    refine ⟨fun previous last => ?_, fun empty => alone (List.map_eq_nil_iff.mp empty)⟩
    rw [List.getLast?_map] at last
    obtain ⟨piece, ends, rfl⟩ := Option.map_eq_some_iff.mp last
    exact seam piece ends

variable {later : List (Item α)} {clamped : Bool}

/-- The clamp that the renderers pass, or none. -/
def clampOf (timeline : Timeline) (clamped : Bool) : Option ℚ :=
  if clamped then edlDuration timeline else none

/-- What the item becomes lies within the episode. -/
def Sound (timeline : Timeline) (item : Item α) : Prop :=
  ∀ stop, item.stop = some stop →
    item.start ≤ stop ∧ ∃ duration, edlDuration timeline = some duration ∧ stop ≤ duration

theorem ending_of_stretch {stop : ℚ} {next : Piece ℚ}
    (ordered : Ordered (front ++ next :: back)) {start : ℚ}
    (removed : translate (front ++ next :: back) start = none)
    (above : ∀ piece ∈ front, piece.start ≤ start) (forward : start ≤ stop)
    (beyond : stop < next.start) :
    ending clampTo (front ++ next :: back) (some stop) =
      clampTo.map fun duration => (front.getLast?.map Piece.imageStop).getD duration := by
  have begun_ : Pieces.begun stop (front ++ next :: back) = front.getLast? :=
    Pieces.begun_append (fun piece member => (above piece member).trans forward) beyond
  have gone : translate (front ++ next :: back) stop = none := by
    by_contra there
    obtain ⟨image, moved⟩ := Option.ne_none_iff_exists'.mp there
    obtain ⟨piece, found, _⟩ := Pieces.translate_eq_some moved
    obtain ⟨member, begins, _⟩ := Pieces.over_bounds found
    have early : piece.start ≤ start := by
      rcases List.mem_append.mp member with within | rest
      · exact above piece within
      · have late : next.start ≤ piece.start := by
          rcases List.mem_cons.mp rest with rfl | more
          · exact le_rfl
          · have parts := List.pairwise_cons.mp (List.pairwise_append.mp ordered).2.1
            exact next.positive.le.trans (parts.1 piece more).1
        exact absurd (late.trans begins) (not_le.mpr beyond)
    have both := Pieces.covering_earlier ordered.disjoint found early forward
    rw [Pieces.translate, Pieces.pieceAt, both] at removed
    cases removed
  rw [ending, gone, begun_]
  rfl

theorem housedAt_of_orderly (wellFormed : timeline.WellFormed)
    (spans : sourceSegments timeline sourceId = pieces.map .ofPiece) (ordered : Ordered pieces)
    (forward : ∀ stop, item.stop = some stop → item.start ≤ stop)
    (orderly : ∀ result, moved (clampOf timeline true) true pieces item = some result →
      Sound timeline result ∧ ∀ other ∈ later, ∀ after,
        moved (clampOf timeline true) true pieces other = some after → result.Follows after) :
    HousedAt timeline sourceId pieces item later := by
  intro stop known removed front next back row above beyond
  have early := forward stop known
  have member : next ∈ pieces := by
    rw [row]
    simp
  obtain ⟨duration, whole, within⟩ := edlDuration_of_piece wellFormed spans member
  have clamp : clampOf timeline true = some duration := whole
  rw [clamp] at orderly
  have landed : landing true pieces item.start = some next.image := by
    rw [landing, removed, if_pos rfl, next_append row above (early.trans_lt beyond)]
    rfl
  have ends : ending (some duration) pieces item.stop =
      some ((front.getLast?.map Piece.imageStop).getD duration) := by
    subst row
    rw [known, ending_of_stretch ordered removed above early beyond]
    rfl
  obtain ⟨result, left, begins, stops⟩ :
      ∃ result, moved (some duration) true pieces item = some result ∧ result.start = next.image ∧
        result.stop = ending (some duration) pieces item.stop := moved_of_landing landed
  obtain ⟨sound, behind⟩ := orderly result left
  rw [ends] at stops
  constructor
  · intro previous last
    rw [last] at stops
    have bound := (sound _ stops).1
    rw [begins] at bound
    subst row
    have parts := (List.pairwise_append.mp ordered).2.2 previous (List.mem_of_getLast? last) next
      List.mem_cons_self
    exact le_antisymm parts.2 bound
  · rintro rfl other member last lastly stop' ended
    rw [spans, List.getLast?_map] at lastly
    obtain ⟨final, finally_, rfl⟩ := Option.map_eq_some_iff.mp lastly
    cases ended
    have bound {image : ℚ} (there : landing true pieces other.start = some image) :
        duration ≤ image := by
      obtain ⟨after, moved_, start, _⟩ :
          ∃ after, moved (some duration) true pieces other = some after ∧ after.start = image ∧
            after.stop = ending (some duration) pieces other.stop := moved_of_landing there
      rw [← start]
      exact (behind other member after moved_).2 duration stops
    have least := within final (List.mem_of_getLast? finally_)
    constructor
    · by_contra before
      obtain ⟨image, there, strict⟩ := landing_lt_last ordered finally_ (not_le.mp before)
      exact absurd (strict.trans_le least) (not_lt.mpr (bound there))
    · intro same
      have exactly := bound (same ▸ landing_stop ordered finally_)
      rw [whole, le_antisymm exactly least]
      rfl

theorem orderly_of_housedAt (wellFormed : timeline.WellFormed)
    (spans : sourceSegments timeline sourceId = pieces.map .ofPiece) (ordered : Ordered pieces)
    (forward : ∀ stop, item.stop = some stop → item.start ≤ stop)
    (follows : ∀ other ∈ later, item.Follows other)
    (housed : snaps = true → clamped = true → HousedAt timeline sourceId pieces item later)
    (left : moved (clampOf timeline clamped) snaps pieces item = some result) :
    Sound timeline result ∧ ∀ other ∈ later, ∀ after,
      moved (clampOf timeline clamped) snaps pieces other = some after → result.Follows after := by
  obtain ⟨landed, stops⟩ := moved_eq_some left
  suffices bounds : ∀ stop, result.stop = some stop → (result.start ≤ stop ∧
      ∃ duration, edlDuration timeline = some duration ∧ stop ≤ duration) ∧
        ∀ other ∈ later, ∀ image, landing snaps pieces other.start = some image → stop ≤ image by
    refine ⟨fun stop known => (bounds stop known).1, fun other member after moved_ => ?_⟩
    obtain ⟨there, _⟩ := moved_eq_some moved_
    exact ⟨Pieces.landing_le ordered landed there (follows other member).1,
      fun stop known => (bounds stop known).2 other member _ there⟩
  intro image known
  rw [known] at stops
  obtain ⟨stop, ended, cases_⟩ := ending_eq_some stops.symm
  have early := forward stop ended
  have before (other : Item α) (member : other ∈ later) : stop ≤ other.start :=
    (follows other member).2 stop ended
  -- an item that is cut out lies before the next piece
  have stretch {next : Piece ℚ} (removed : translate pieces item.start = none)
      (found : Pieces.next item.start pieces = some next) (beyond : stop < next.start)
      (clamps : clamped = true) (snapped : snaps = true) :
      ∃ front, Pieces.begun stop pieces = front.getLast? ∧
        (∀ previous, front.getLast? = some previous → previous.imageStop = next.image) ∧
          (front = [] → ∀ other ∈ later, Outlived timeline sourceId other.start) := by
    obtain ⟨front, back, row, above, _⟩ := append_of_next found
    refine ⟨front, ?_, housed snapped clamps stop ended removed front next back row above beyond⟩
    rw [row]
    exact Pieces.begun_append (fun piece member => (above piece member).trans early) beyond
  have clamps (given : clampOf timeline clamped ≠ none) : clamped = true := by
    cases clamped with
    | true => rfl
    | false => exact absurd rfl given
  rcases cases_ with moved_ | ⟨removed, ⟨piece, found, rfl, given⟩ | ⟨none_, given⟩⟩
  · refine ⟨⟨Pieces.landing_le ordered landed (Pieces.landing_of_translate moved_) early, ?_⟩,
      fun other member there landed_ =>
        Pieces.landing_le ordered (Pieces.landing_of_translate moved_) landed_ (before other member)⟩
    obtain ⟨piece, found, rfl⟩ := Pieces.translate_eq_some moved_
    obtain ⟨duration, whole, within⟩ := edlDuration_of_piece wellFormed spans
      (Pieces.over_bounds found).1
    exact ⟨duration, whole,
      (Pieces.move_mem found).2.trans (within piece (Pieces.over_bounds found).1)⟩
  · have member := (Pieces.begun_eq_some found).1
    obtain ⟨duration, whole, within⟩ := edlDuration_of_piece wellFormed spans member
    refine ⟨⟨?_, duration, whole, within piece member⟩, fun other member there landed_ =>
      Pieces.begun_le_landing ordered removed found landed_ (before other member)⟩
    refine Pieces.landing_le_begun ordered landed found early fun next cut found_ beyond => ?_
    have snapped : snaps = true := by
      rcases Pieces.landing_eq_some landed with ⟨first, inside, _⟩ | ⟨snapped, _⟩
      · rw [Pieces.translate, inside] at cut
        cases cut
      · exact snapped
    obtain ⟨front, last, seam, _⟩ := stretch cut found_ beyond (clamps given) snapped
    exact seam piece (last.symm.trans found)
  · have clamps_ := clamps (by rw [given]; exact fun none_ => by cases none_)
    have whole : edlDuration timeline = some image := by rwa [clampOf, if_pos clamps_] at given
    rcases Pieces.landing_eq_some landed with ⟨first, inside, _⟩ | ⟨snapped, cut, next, found, same⟩
    · obtain ⟨member, above, _⟩ := Pieces.over_bounds inside
      exact absurd (above.trans early) (not_le.mpr (Pieces.begun_eq_none none_ ordered member))
    · have member := (Pieces.next_eq_some found).1
      obtain ⟨duration, also, within⟩ := edlDuration_of_piece wellFormed spans member
      cases whole.symm.trans also
      have beyond := Pieces.begun_eq_none none_ ordered member
      obtain ⟨front, last, _, alone⟩ := stretch cut found beyond clamps_ snapped
      have empty : front = [] := List.getLast?_eq_none_iff.mp (last.symm.trans none_)
      refine ⟨⟨?_, image, whole, le_rfl⟩, fun other among there landed_ =>
        landing_of_outlived spans ordered (alone empty other among) whole landed_⟩
      rw [← same]
      exact next.image_lt.le.trans (within next member)

theorem orderly_filterMap (items : List (Item α)) (move : Item α → Option (Item α)) :
    Orderly timeline (items.filterMap move) ↔
      ∀ earlier item later, items = earlier ++ item :: later → ∀ result, move item = some result →
        Sound timeline result ∧
          ∀ other ∈ later, ∀ after, move other = some after → result.Follows after := by
  rw [Orderly, List.isChain_iff_pairwise, List.pairwise_filterMap]
  constructor
  · rintro ⟨apart, sound⟩ earlier item later rfl result left
    refine ⟨sound result (List.mem_filterMap.mpr ⟨item, by simp, left⟩), fun other member after => ?_⟩
    have parts := List.pairwise_cons.mp (List.pairwise_append.mp apart).2.1
    exact parts.1 other member result left after
  · intro each
    constructor
    · induction items with
      | nil => exact .nil
      | cons item rest induction =>
          refine .cons (fun other member result left after => ?_)
            (induction fun earlier other later row => ?_)
          · exact (each [] item rest rfl result left).2 other member after
          · exact each (item :: earlier) other later (by rw [row]; rfl)
    · intro result member
      obtain ⟨item, within, left⟩ := List.mem_filterMap.mp member
      obtain ⟨earlier, later, row⟩ := List.append_of_mem within
      exact (each earlier item later row result left).1

end

/-- Remapped items follow each other within the episode unless one that lies in a
single removed stretch is snapped out of it and given an end. -/
theorem remap_orderly_iff {α : Type} {timeline : Timeline} (wellFormed : timeline.WellFormed)
    {items : List (Item α)} (sorted : InOrder items) (named : Option String)
    (clamped snaps : Bool) :
    ∃ output, remap timeline named (if clamped then edlDuration timeline else none) snaps items =
        .ok output ∧
      (Orderly timeline output ↔ (snaps = true → clamped = true →
        Housed timeline (named.or (firstSource timeline)) items)) := by
  obtain ⟨pieces, spans, ordered⟩ := wellFormed.pieces (named.or (firstSource timeline))
  refine ⟨items.filterMap (moved (clampOf timeline clamped) snaps pieces),
    remapItems_pieces spans ordered items, ?_⟩
  rw [orderly_filterMap, housed_iff spans]
  constructor
  · rintro orderly rfl rfl earlier item later row
    refine housedAt_of_orderly wellFormed spans ordered ?_ (orderly earlier item later row)
    exact sorted.2 item (by rw [row]; simp)
  · intro housed earlier item later row result left
    refine orderly_of_housedAt wellFormed spans ordered ?_ ?_
      (fun snapped clamps => housed snapped clamps earlier item later row) left
    · exact sorted.2 item (by rw [row]; simp)
    · have apart := sorted.1
      rw [row] at apart
      exact (List.pairwise_cons.mp (List.pairwise_append.mp apart).2.1).1

/-- A recording whose first ten seconds are cut. -/
def lateStart : Timeline where
  version := "v1"
  segments := [⟨0, 30, .source "meeting" 10 (some 40)⟩]

theorem wellFormed_lateStart : lateStart.WellFormed where
  contiguous := by simp only [lateStart, Contiguous]; norm_num
  rigid := by
    intro segment member sourceId sourceStart sourceEnd kind
    cases List.mem_singleton.mp member
    cases kind
    exact ⟨40, rfl, by norm_num, by norm_num⟩
  increasing := List.pairwise_singleton _ _

/-- A chapter in the cut, and one after it. -/
def chapters : List (Item Unit) := [⟨0, some 5, ()⟩, ⟨20, some 30, ()⟩]

theorem inOrder_chapters : InOrder chapters := by
  constructor
  · refine .cons (fun other member => ?_) (List.pairwise_singleton _ _)
    cases List.mem_singleton.mp member
    exact ⟨by norm_num, fun stop known => by cases known; norm_num⟩
  · intro item member stop known
    rcases List.mem_cons.mp member with rfl | last
    · cases known
      norm_num
    · cases List.mem_singleton.mp last
      cases known
      norm_num

theorem remap_orderly_iff_lateStart :
    ∃ output, remap lateStart none (if true then edlDuration lateStart else none) false chapters =
        .ok output ∧
      (Orderly lateStart output ↔ (false = true → true = true →
        Housed lateStart ((none : Option String).or (firstSource lateStart)) chapters)) :=
  remap_orderly_iff wellFormed_lateStart inOrder_chapters none true false

/-- The first chapter is snapped to the first audio, and runs to the end of the
episode, over the second. -/
theorem remap_overlaps : lateStart.WellFormed ∧ InOrder chapters ∧
    remap lateStart none (edlDuration lateStart) true chapters =
      .ok [⟨0, some 30, ()⟩, ⟨10, some 20, ()⟩] ∧
    ¬ Orderly lateStart [(⟨0, some 30, ()⟩ : Item Unit), ⟨10, some 20, ()⟩] := by
  refine ⟨wellFormed_lateStart, inOrder_chapters, by decide +kernel, fun orderly => ?_⟩
  have follows := (List.isChain_cons_cons.mp orderly.1).1.2 30 rfl
  norm_num at follows

end CityPods.Audio
