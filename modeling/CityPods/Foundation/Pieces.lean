import Mathlib.Algebra.Order.Group.Basic
import Mathlib.Data.List.Pairwise
import Mathlib.Tactic.Abel

/-! # Piecewise translations

Intervals in a row, each moved as a whole: which interval an instant belongs to,
where it is moved, and the intervals before and after an instant of none. An
interval has its start and not its end, but the last one has both.
-/

namespace CityPods.Foundation

namespace Pieces

/-! ## Covering -/

section

variable {ι τ : Type} [LinearOrder τ] (start stop : ι → τ)

/-- The first interval that the instant is in. -/
def covering (instant : τ) : List ι → Option ι
  | [] => none
  | item :: rest =>
      if start item ≤ instant ∧ (if rest.isEmpty then instant ≤ stop item else instant < stop item)
      then some item
      else covering instant rest

/-- Each interval ends before the next begins. -/
def Disjoint (items : List ι) : Prop := items.Pairwise fun first second => stop first ≤ start second

variable {start stop} {items : List ι} {item : ι} {instant : τ}

theorem covering_eq_some (found : covering start stop instant items = some item) :
    ∃ before after, items = before ++ item :: after ∧ start item ≤ instant ∧
      instant ≤ stop item ∧ (after ≠ [] → instant < stop item) := by
  induction items with
  | nil => cases found
  | cons head rest induction =>
      rw [covering] at found
      by_cases inside : start head ≤ instant ∧
          (if rest.isEmpty then instant ≤ stop head else instant < stop head)
      · rw [if_pos inside] at found
        cases found
        obtain ⟨above, bound⟩ := inside
        refine ⟨[], rest, rfl, above, ?_, fun more => ?_⟩
        · split at bound
          · exact bound
          · exact bound.le
        · rwa [if_neg (by simpa using more)] at bound
      · rw [if_neg inside] at found
        obtain ⟨before, after, rfl, rest⟩ := induction found
        exact ⟨head :: before, after, rfl, rest⟩

theorem covering_append {before after : List ι} (disjoint : Disjoint start stop (before ++ item :: after))
    (above : start item ≤ instant) (below : instant ≤ stop item)
    (within : after ≠ [] → instant < stop item) :
    covering start stop instant (before ++ item :: after) = some item := by
  induction before with
  | nil =>
      rw [List.nil_append, covering, if_pos]
      refine ⟨above, ?_⟩
      split
      · exact below
      · next more => exact within (by simpa using more)
  | cons head rest induction =>
      have parts := List.pairwise_cons.mp disjoint
      have later := parts.1 item (List.mem_append_right _ List.mem_cons_self)
      rw [List.cons_append, covering, if_neg]
      · exact induction parts.2
      · rintro ⟨_, bound⟩
        rw [if_neg (by simp)] at bound
        exact absurd (bound.trans_le later) (not_lt.mpr above)

theorem mem_of_covering (found : covering start stop instant items = some item) : item ∈ items := by
  obtain ⟨before, after, rfl, _⟩ := covering_eq_some found
  exact List.mem_append_right _ List.mem_cons_self

theorem covering_of_mem (disjoint : Disjoint start stop items) (member : item ∈ items)
    (above : start item ≤ instant) (below : instant < stop item) :
    covering start stop instant items = some item := by
  obtain ⟨before, after, rfl⟩ := List.append_of_mem member
  exact covering_append disjoint above below.le fun _ => below

theorem covering_earlier {earlier : τ} (disjoint : Disjoint start stop items)
    (found : covering start stop instant items = some item) (above : start item ≤ earlier)
    (before : earlier ≤ instant) : covering start stop earlier items = some item := by
  obtain ⟨front, after, rfl, _, below, within⟩ := covering_eq_some found
  exact covering_append disjoint above (before.trans below) fun more => before.trans_lt (within more)

end

/-! ## Pieces -/

variable {τ : Type} [AddCommGroup τ] [LinearOrder τ]

/-- An interval with its image, which is as long. -/
structure Piece (τ : Type) [AddCommGroup τ] [LinearOrder τ] where
  start : τ
  stop : τ
  image : τ
  imageStop : τ
  positive : start < stop
  rigid : imageStop - image = stop - start

namespace Piece

def move (piece : Piece τ) (instant : τ) : τ := piece.image + (instant - piece.start)

@[simp] theorem move_start (piece : Piece τ) : piece.move piece.start = piece.image := by
  simp [move]

@[simp] theorem move_stop (piece : Piece τ) : piece.move piece.stop = piece.imageStop := by
  rw [move, ← piece.rigid]
  abel

variable [IsOrderedAddMonoid τ] {first second : τ}

theorem move_lt_move (piece : Piece τ) :
    piece.move first < piece.move second ↔ first < second := by
  simp [move]

theorem move_le_move (piece : Piece τ) :
    piece.move first ≤ piece.move second ↔ first ≤ second := by
  simp [move]

theorem image_lt (piece : Piece τ) : piece.image < piece.imageStop := by
  rw [← piece.move_start, ← piece.move_stop, move_lt_move]
  exact piece.positive

end Piece

def Ordered (pieces : List (Piece τ)) : Prop :=
  pieces.Pairwise fun first second =>
    first.stop ≤ second.start ∧ first.imageStop ≤ second.image

def pieceAt (instant : τ) (pieces : List (Piece τ)) : Option (Piece τ) :=
  covering Piece.start Piece.stop instant pieces

def translate (pieces : List (Piece τ)) (instant : τ) : Option τ :=
  (pieceAt instant pieces).map fun piece => piece.move instant

def next (instant : τ) (pieces : List (Piece τ)) : Option (Piece τ) :=
  pieces.find? fun piece => instant < piece.start

def begun (instant : τ) : List (Piece τ) → Option (Piece τ)
  | [] => none
  | piece :: rest => if piece.start ≤ instant then (begun instant rest).or (some piece) else none

section

variable {pieces : List (Piece τ)} {first second : Piece τ} {instant : τ}

theorem Ordered.disjoint (ordered : Ordered pieces) :
    Disjoint Piece.start Piece.stop pieces :=
  ordered.imp fun both => both.1

/-- Of two pieces the one that begins earlier ends before the other begins. -/
theorem Ordered.before (ordered : Ordered pieces) (member : first ∈ pieces) (also : second ∈ pieces)
    (earlier : first.start < second.start) :
    first.stop ≤ second.start ∧ first.imageStop ≤ second.image := by
  induction pieces with
  | nil => cases member
  | cons head rest induction =>
      have parts := List.pairwise_cons.mp ordered
      rcases List.mem_cons.mp member with rfl | within
      · rcases List.mem_cons.mp also with rfl | among
        · exact absurd earlier (lt_irrefl _)
        · exact parts.1 second among
      · rcases List.mem_cons.mp also with rfl | among
        · have after := (parts.1 first within).1
          exact absurd (earlier.trans (second.positive.trans_le after)) (lt_irrefl _)
        · exact induction parts.2 within among

theorem Ordered.eq_of_start (ordered : Ordered pieces) (member : first ∈ pieces)
    (also : second ∈ pieces) (same : first.start = second.start) : first = second := by
  induction pieces with
  | nil => cases member
  | cons head rest induction =>
      have parts := List.pairwise_cons.mp ordered
      rcases List.mem_cons.mp member with rfl | within
      · rcases List.mem_cons.mp also with rfl | among
        · rfl
        · have after := (parts.1 second among).1
          rw [← same] at after
          exact absurd first.positive (not_lt.mpr after)
      · rcases List.mem_cons.mp also with rfl | among
        · have after := (parts.1 first within).1
          rw [same] at after
          exact absurd second.positive (not_lt.mpr after)
        · exact induction parts.2 within among

theorem Ordered.image_le [IsOrderedAddMonoid τ] (ordered : Ordered pieces) (member : first ∈ pieces)
    (also : second ∈ pieces) (earlier : first.start ≤ second.start) :
    first.image ≤ second.image := by
  rcases earlier.lt_or_eq with before | same
  · exact first.image_lt.le.trans (ordered.before member also before).2
  · rw [ordered.eq_of_start member also same]

/-! ## The pieces around an instant -/

theorem over_bounds (found : pieceAt instant pieces = some first) :
    first ∈ pieces ∧ first.start ≤ instant ∧ instant ≤ first.stop := by
  obtain ⟨before, after, rfl, above, below, _⟩ := covering_eq_some found
  exact ⟨List.mem_append_right _ List.mem_cons_self, above, below⟩

theorem next_eq_some (found : next instant pieces = some first) :
    first ∈ pieces ∧ instant < first.start :=
  ⟨List.mem_of_find?_eq_some found, of_decide_eq_true (List.find?_some found :)⟩

theorem Ordered.next_le (ordered : Ordered pieces) (found : next instant pieces = some first)
    (member : second ∈ pieces) (after : instant < second.start) : first.start ≤ second.start := by
  obtain ⟨_, before, rest, rfl, none_⟩ := List.find?_eq_some_iff_append.mp found
  rcases List.mem_append.mp member with early | late
  · have no := none_ second early
    exact absurd after (by simpa using no)
  · rcases List.mem_cons.mp late with rfl | later
    · exact le_refl _
    · have parts := List.pairwise_cons.mp (List.pairwise_append.mp ordered).2.1
      exact first.positive.le.trans (parts.1 second later).1

theorem next_isSome (member : first ∈ pieces) (after : instant < first.start) :
    (next instant pieces).isSome = true := by
  rw [next, List.find?_isSome]
  exact ⟨first, member, by simpa using after⟩

theorem begun_eq_some (found : begun instant pieces = some first) :
    first ∈ pieces ∧ first.start ≤ instant := by
  induction pieces with
  | nil => cases found
  | cons head rest induction =>
      rw [begun] at found
      split at found
      · next above =>
        rcases Option.or_eq_some_iff.mp found with later | ⟨_, here⟩
        · exact ⟨List.mem_cons_of_mem _ (induction later).1, (induction later).2⟩
        · cases here
          exact ⟨List.mem_cons_self, above⟩
      · cases found

/-- The piece that has begun last begins no earlier than any other that has. -/
theorem Ordered.le_begun (ordered : Ordered pieces) (member : second ∈ pieces)
    (above : second.start ≤ instant) :
    ∃ piece, begun instant pieces = some piece ∧ second.start ≤ piece.start := by
  induction pieces with
  | nil => cases member
  | cons head rest induction =>
      have parts := List.pairwise_cons.mp ordered
      have after (piece : Piece τ) (later : piece ∈ rest) : head.start ≤ piece.start :=
        head.positive.le.trans (parts.1 piece later).1
      rw [begun]
      rcases List.mem_cons.mp member with rfl | within
      · rw [if_pos above]
        cases found : begun instant rest with
        | none => exact ⟨second, rfl, le_refl _⟩
        | some piece => exact ⟨piece, rfl, after piece (begun_eq_some found).1⟩
      · obtain ⟨piece, found, least⟩ := induction parts.2 within
        rw [if_pos ((after second within).trans above), found]
        exact ⟨piece, rfl, least⟩

theorem begun_eq_none (none_ : begun instant pieces = none) (ordered : Ordered pieces)
    (member : second ∈ pieces) : instant < second.start := by
  by_contra above
  obtain ⟨piece, found, _⟩ := ordered.le_begun member (not_lt.mp above)
  rw [none_] at found
  cases found

/-! ## Translations -/

theorem translate_eq_some {image : τ} (moved : translate pieces instant = some image) :
    ∃ piece, pieceAt instant pieces = some piece ∧ piece.move instant = image := by
  obtain ⟨piece, found, rfl⟩ := Option.map_eq_some_iff.mp moved
  exact ⟨piece, found, rfl⟩

variable [IsOrderedAddMonoid τ]

theorem move_mem (found : pieceAt instant pieces = some first) :
    first.image ≤ first.move instant ∧ first.move instant ≤ first.imageStop := by
  obtain ⟨_, above, below⟩ := over_bounds found
  rw [← first.move_start, ← first.move_stop, first.move_le_move, first.move_le_move]
  exact ⟨above, below⟩

variable {earlier later : τ}

theorem translate_lt (ordered : Ordered pieces) {image other : τ}
    (moved : translate pieces earlier = some image) (also : translate pieces later = some other)
    (before : earlier < later) : image < other := by
  obtain ⟨piece, found, rfl⟩ := translate_eq_some moved
  obtain ⟨next, there, rfl⟩ := translate_eq_some also
  obtain ⟨member, above, below⟩ := over_bounds found
  obtain ⟨within, start, stop⟩ := over_bounds there
  by_cases same : next.start ≤ earlier
  · -- the later piece covers both
    have both := covering_earlier ordered.disjoint there same before.le
    cases found.symm.trans both
    exact piece.move_lt_move.mpr before
  · have begins : piece.start < next.start := above.trans_lt (not_le.mp same)
    have apart := ordered.before member within begins
    have least := (move_mem there).1
    by_cases first : next.start < later
    · calc piece.move earlier ≤ piece.imageStop := (move_mem found).2
        _ ≤ next.image := apart.2
        _ < next.move later := by rwa [← next.move_start, next.move_lt_move]
    · have strict : earlier < piece.stop := by
        obtain ⟨front, after, rfl, _, _, inner⟩ := covering_eq_some found
        refine inner ?_
        rintro rfl
        rcases List.mem_append.mp within with early | single
        · have parts := List.pairwise_append.mp ordered
          have ends := (parts.2.2 next early piece List.mem_cons_self).1
          exact absurd (begins.trans (next.positive.trans_le ends)) (lt_irrefl _)
        · cases List.mem_singleton.mp single
          exact absurd begins (lt_irrefl _)
      calc piece.move earlier < piece.imageStop := by
            rwa [← piece.move_stop, piece.move_lt_move]
        _ ≤ next.image := apart.2
        _ ≤ next.move later := least

/-! ## Landing -/

def landing (snaps : Bool) (pieces : List (Piece τ)) (instant : τ) : Option τ :=
  (translate pieces instant).or (if snaps then (next instant pieces).map Piece.image else none)

variable {snaps : Bool} {image : τ}

omit [IsOrderedAddMonoid τ] in
theorem landing_of_translate (moved : translate pieces instant = some image) :
    landing snaps pieces instant = some image := by
  rw [landing, moved]
  rfl

omit [IsOrderedAddMonoid τ] in
theorem landing_eq_some (landed : landing snaps pieces instant = some image) :
    (∃ piece, pieceAt instant pieces = some piece ∧ piece.move instant = image) ∨
      (snaps = true ∧ translate pieces instant = none ∧
        ∃ piece, next instant pieces = some piece ∧ piece.image = image) := by
  rcases Option.or_eq_some_iff.mp landed with moved | ⟨none_, snapped⟩
  · exact .inl (translate_eq_some moved)
  · split at snapped
    · next may =>
      obtain ⟨piece, found, rfl⟩ := Option.map_eq_some_iff.mp snapped
      exact .inr ⟨may, none_, piece, found, rfl⟩
    · cases snapped

theorem landing_le_image (ordered : Ordered pieces) (landed : landing snaps pieces instant = some image)
    (member : second ∈ pieces) (after : instant < second.start) : image ≤ second.image := by
  rcases landing_eq_some landed with ⟨piece, found, rfl⟩ | ⟨_, _, piece, found, rfl⟩
  · obtain ⟨within, above, _⟩ := over_bounds found
    exact (move_mem found).2.trans (ordered.before within member (above.trans_lt after)).2
  · exact ordered.image_le (next_eq_some found).1 member (ordered.next_le found member after)

theorem landing_le (ordered : Ordered pieces) {first second : τ}
    (landed : landing snaps pieces earlier = some first)
    (also : landing snaps pieces later = some second) (before : earlier ≤ later) :
    first ≤ second := by
  rcases landing_eq_some also with ⟨piece, found, rfl⟩ | ⟨_, _, piece, found, rfl⟩
  · obtain ⟨member, above, _⟩ := over_bounds found
    by_cases same : piece.start ≤ earlier
    · have both := covering_earlier ordered.disjoint found same before
      have moved : translate pieces earlier = some (piece.move earlier) := by
        rw [translate, pieceAt, both]
        rfl
      cases (landing_of_translate moved).symm.trans landed
      exact piece.move_le_move.mpr before
    · exact (landing_le_image ordered landed member (not_le.mp same)).trans (move_mem found).1
  · obtain ⟨member, after⟩ := next_eq_some found
    exact landing_le_image ordered landed member (before.trans_lt after)

theorem begun_le_landing (ordered : Ordered pieces)
    (removed : translate pieces instant = none) (found : begun instant pieces = some first)
    (landed : landing snaps pieces later = some image) (before : instant ≤ later) :
    first.imageStop ≤ image := by
  obtain ⟨member, above⟩ := begun_eq_some found
  have apart {piece : Piece τ} (within : piece ∈ pieces) (after : instant < piece.start) :
      first.imageStop ≤ piece.image :=
    (ordered.before member within (above.trans_lt after)).2
  rcases landing_eq_some landed with ⟨piece, there, rfl⟩ | ⟨_, _, piece, there, rfl⟩
  · obtain ⟨within, _, _⟩ := over_bounds there
    refine (apart within (not_le.mp fun same => ?_)).trans (move_mem there).1
    have both := covering_earlier ordered.disjoint there same before
    rw [translate, pieceAt, both] at removed
    cases removed
  · obtain ⟨within, after⟩ := next_eq_some there
    exact apart within (before.trans_lt after)

/-- Before an instant, nothing lands after the end of the last piece that has
begun, unless it lands on a piece that has not. -/
theorem landing_le_begun (ordered : Ordered pieces)
    (landed : landing snaps pieces earlier = some image) (found : begun instant pieces = some first)
    (before : earlier ≤ instant)
    (begins : ∀ piece, translate pieces earlier = none → next earlier pieces = some piece →
      instant < piece.start → first.imageStop = piece.image) : image ≤ first.imageStop := by
  obtain ⟨member, _⟩ := begun_eq_some found
  have least {piece : Piece τ} (within : piece ∈ pieces) (above : piece.start ≤ instant) :
      piece.start ≤ first.start := by
    obtain ⟨last, also, bound⟩ := ordered.le_begun within above
    cases found.symm.trans also
    exact bound
  rcases landing_eq_some landed with ⟨piece, there, rfl⟩ | ⟨_, removed, piece, there, rfl⟩
  · obtain ⟨within, above, _⟩ := over_bounds there
    rcases (least within (above.trans before)).lt_or_eq with apart | same
    · exact (move_mem there).2.trans
        ((ordered.before within member apart).2.trans first.image_lt.le)
    · rw [← ordered.eq_of_start within member same]
      exact (move_mem there).2
  · obtain ⟨within, _⟩ := next_eq_some there
    rcases le_or_gt piece.start instant with above | beyond
    · exact (ordered.image_le within member (least within above)).trans first.image_lt.le
    · exact (begins piece removed there beyond).ge

omit [IsOrderedAddMonoid τ] in
theorem begun_append {front back : List (Piece τ)} (above : ∀ piece ∈ front, piece.start ≤ instant)
    (beyond : instant < second.start) :
    begun instant (front ++ second :: back) = front.getLast? := by
  induction front with
  | nil => rw [List.nil_append, begun, if_neg (not_le.mpr beyond)]; rfl
  | cons head rest induction =>
      rw [List.cons_append, begun, if_pos (above head List.mem_cons_self),
        induction fun piece member => above piece (List.mem_cons_of_mem _ member)]
      cases rest with
      | nil => rfl
      | cons next later =>
          rw [List.getLast?_cons_cons]
          cases found : (next :: later).getLast? with
          | none => exact absurd (List.getLast?_eq_none_iff.mp found) (List.cons_ne_nil _ _)
          | some last => rfl

end

end Pieces

end CityPods.Foundation
