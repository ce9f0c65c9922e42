import Mathlib.Algebra.Order.Ring.Rat
import CityPods.Foundation.PyVal

/-! # Overlapping turns

The sweep that flags the diarization turns in which someone else speaks as well,
and its agreement with the comparison of all pairs.
-/

namespace CityPods.Speakers

open Foundation

/-- A turn of a cluster; `others` are its entries that the sweep does not look at. -/
structure Turn where
  start : ℚ
  stop : ℚ
  overlap : Bool := false
  others : Dict String PyVal := []

def Intersects (first second : Turn) : Prop :=
  max first.start second.start < min first.stop second.stop

instance (first second : Turn) : Decidable (Intersects first second) :=
  inferInstanceAs (Decidable (_ < _))

/-! ## The sweep -/

/-- The turns, which the sweep changes in place, and the positions that are still active. -/
structure Sweep where
  turns : List Turn
  active : List Nat := []

def flag (turns : List Turn) (index : Nat) : List Turn :=
  turns.modify index fun turn => { turn with overlap := true }

def endsAfter (turns : List Turn) (instant : ℚ) (index : Nat) : Bool :=
  turns[index]?.any fun turn => decide (instant < turn.stop)

def Sweep.visit (sweep : Sweep) (index : Nat) : Sweep :=
  match sweep.turns[index]? with
  | none => sweep
  | some turn =>
      let active := sweep.active.filter (endsAfter sweep.turns turn.start)
      { turns := active.foldl (fun turns other =>
          if endsAfter turns turn.start other then flag (flag turns index) other else turns)
          sweep.turns
        active := active ++ [index] }

def sweepOrder (turns : List Turn) : List Nat :=
  (List.range turns.length).insertionSort fun first second =>
    (turns[first]?.map Turn.start).getD 0 ≤ (turns[second]?.map Turn.start).getD 0

def markOverlap (turns : List Turn) : List Turn :=
  ((sweepOrder turns).foldl Sweep.visit { turns := turns }).turns

/-! ## Flags -/

variable {turns : List Turn} {index other : Nat}

theorem flag_getElem? (turns : List Turn) (index other : Nat) : (flag turns index)[other]? =
    turns[other]?.map fun turn => { turn with overlap := turn.overlap || decide (other = index) } := by
  rw [flag, List.getElem?_modify]
  by_cases same : index = other
  · subst same
    simp
  · cases turns[other]? <;> simp [same, Ne.symm same]

/-- The turns with the positions flagged that satisfy the condition. -/
def Flagged (flags : Nat → Bool) (before after : List Turn) : Prop :=
  ∀ index : Nat, after[index]? =
    before[index]?.map fun turn => { turn with overlap := turn.overlap || flags index }

theorem Flagged.refl (turns : List Turn) : Flagged (fun _ => false) turns turns := by
  intro index
  cases turns[index]? <;> simp

variable {before after : List Turn} {flags : Nat → Bool}

theorem Flagged.length (flagged : Flagged flags before after) : after.length = before.length := by
  have beyond := flagged before.length
  have within := flagged after.length
  rw [List.getElem?_eq_none le_rfl, Option.map_none, List.getElem?_eq_none_iff] at beyond
  rw [List.getElem?_eq_none le_rfl, eq_comm, Option.map_eq_none_iff,
    List.getElem?_eq_none_iff] at within
  exact le_antisymm beyond within

theorem Flagged.flag (flagged : Flagged flags before after) (other : Nat) :
    Flagged (fun index => flags index || decide (index = other)) before (flag after other) := by
  intro index
  rw [flag_getElem?, flagged index, Option.map_map]
  simp [Function.comp_def, Bool.or_assoc]

theorem Flagged.endsAfter (flagged : Flagged flags before after) (instant : ℚ) (index : Nat) :
    endsAfter after instant index = endsAfter before instant index := by
  rw [Speakers.endsAfter, Speakers.endsAfter, flagged index, Option.any_map]

theorem Flagged.foldl
    (flagged : Flagged flags before after) (instant : ℚ) (index : Nat) (active : List Nat)
    (all : ∀ other ∈ active, Speakers.endsAfter before instant other = true) :
    Flagged (fun place => flags place || (decide (place = index) && !active.isEmpty) ||
        decide (place ∈ active)) before
      (active.foldl (fun turns other =>
        if Speakers.endsAfter turns instant other then Speakers.flag (Speakers.flag turns index) other
        else turns) after) := by
  induction active generalizing flags after with
  | nil => simpa using flagged
  | cons other active ih =>
      have ends : Speakers.endsAfter after instant other = true := by
        rw [flagged.endsAfter]
        exact all other List.mem_cons_self
      rw [List.foldl_cons, if_pos ends]
      have later := ih ((flagged.flag index).flag other) fun other member =>
        all other (List.mem_cons_of_mem _ member)
      intro place
      rw [later place]
      congr 1
      funext turn
      simp only [List.isEmpty_cons, List.mem_cons, Bool.decide_or]
      cases flags place <;> cases decide (place = index) <;> cases decide (place = other) <;>
        cases active.isEmpty <;> simp

/-! ## All pairs -/

def meets (turns : List Turn) (first second : Nat) : Bool :=
  decide (first ≠ second) && turns[first]?.any fun turn =>
    turns[second]?.any fun other => decide (Intersects turn other)

theorem meets_iff {first second : Nat} : meets turns first second = true ↔ first ≠ second ∧
    ∃ turn other, turns[first]? = some turn ∧ turns[second]? = some other ∧
      Intersects turn other := by
  simp only [meets, Bool.and_eq_true, decide_eq_true_eq, Option.any_eq_true]
  constructor
  · intro ⟨apart, turn, found, other, found', intersects⟩
    exact ⟨apart, turn, other, found, found', intersects⟩
  · intro ⟨apart, turn, other, found, found', intersects⟩
    exact ⟨apart, turn, found, other, found', intersects⟩

theorem meets_comm (first second : Nat) : meets turns first second = meets turns second first := by
  rw [Bool.eq_iff_iff, meets_iff, meets_iff]
  constructor
  · intro ⟨apart, turn, other, found, found', intersects⟩
    exact ⟨apart.symm, other, turn, found', found, by rwa [Intersects, max_comm, min_comm]⟩
  · intro ⟨apart, turn, other, found, found', intersects⟩
    exact ⟨apart.symm, other, turn, found', found, by rwa [Intersects, max_comm, min_comm]⟩

/-- The sweep has visited the turns at `done`, and those at `rest` are to come: what is no
longer active ends before each of them starts. -/
structure Swept (turns : List Turn) (done rest : List Nat) (sweep : Sweep) : Prop where
  flags : Flagged (fun index => decide (index ∈ done) && done.any (meets turns index)) turns
    sweep.turns
  active : ∀ index ∈ sweep.active, index ∈ done
  passed : ∀ index ∈ done, index ∉ sweep.active → ∀ turn, turns[index]? = some turn →
    ∀ later ∈ rest, ∀ next, turns[later]? = some next → turn.stop ≤ next.start

def InOrder (turns : List Turn) (first second : Nat) : Prop :=
  ∀ turn other, turns[first]? = some turn → turns[second]? = some other → turn.start ≤ other.start

variable {done rest : List Nat} {sweep : Sweep} {turn : Turn}

theorem Swept.active_iff
    (swept : Swept turns done (index :: rest) sweep) (timed : ∀ turn ∈ turns, turn.start < turn.stop)
    (found : turns[index]? = some turn) (new : index ∉ done)
    (earlier : ∀ other ∈ done, InOrder turns other index) (other : Nat) :
    other ∈ sweep.active.filter (endsAfter turns turn.start) ↔
      other ∈ done ∧ meets turns index other = true := by
  have lasts := timed turn (List.mem_of_getElem? found)
  rw [List.mem_filter, endsAfter, Option.any_eq_true]
  constructor
  · intro ⟨active, before, found', ends⟩
    have member := swept.active other active
    have ends := of_decide_eq_true ends
    have order := earlier other member before turn found' found
    have lasts' := timed before (List.mem_of_getElem? found')
    refine ⟨member, meets_iff.mpr ⟨fun same => new (same ▸ member), turn, before, found, found', ?_⟩⟩
    rw [Intersects, max_eq_left order, lt_min_iff]
    exact ⟨lasts, ends⟩
  · intro ⟨member, met⟩
    obtain ⟨apart, turn', before, again, found', intersects⟩ := meets_iff.mp met
    cases found.symm.trans again
    have ends : turn.start < before.stop := (le_max_left ..).trans_lt (intersects.trans_le (min_le_right ..))
    refine ⟨?_, before, found', decide_eq_true ends⟩
    by_contra gone
    have stopped := swept.passed other member gone before found' index List.mem_cons_self turn found
    exact absurd ends (not_lt.mpr stopped)

theorem visit_flags {active : List Nat} (new : index ∉ done)
    (active_iff : ∀ other, other ∈ active ↔ other ∈ done ∧ meets turns index other = true)
    (place : Nat) :
    ((decide (place ∈ done) && done.any (meets turns place)) ||
        (decide (place = index) && !active.isEmpty) || decide (place ∈ active)) =
      (decide (place ∈ done ++ [index]) && (done ++ [index]).any (meets turns place)) := by
  have itself : meets turns index index = false := by simp [meets]
  rw [Bool.eq_iff_iff]
  by_cases same : place = index
  · subst same
    have silent : place ∉ active := fun member => new ((active_iff place).mp member).1
    have some_ : (!active.isEmpty) = true ↔ ∃ other ∈ done, meets turns place other = true := by
      rw [Bool.not_eq_true', List.isEmpty_eq_false_iff_exists_mem]
      exact exists_congr active_iff
    simp [new, silent, itself, some_]
  · have among := active_iff place
    rw [meets_comm] at among
    by_cases member : place ∈ done <;> simp [member, same, among]

theorem Swept.visit
    (swept : Swept turns done (index :: rest) sweep) (timed : ∀ turn ∈ turns, turn.start < turn.stop)
    (found : turns[index]? = some turn) (new : index ∉ done)
    (earlier : ∀ other ∈ done, InOrder turns other index)
    (later : ∀ other ∈ rest, InOrder turns index other) :
    Swept turns (done ++ [index]) rest (sweep.visit index) := by
  have active_iff := swept.active_iff timed found new earlier
  have visited : sweep.turns[index]? =
      some { turn with overlap := turn.overlap || (decide (index ∈ done) && done.any (meets turns index)) } := by
    rw [swept.flags index, found]
    rfl
  have ends : endsAfter sweep.turns turn.start = endsAfter turns turn.start :=
    funext (swept.flags.endsAfter turn.start)
  have shape : sweep.visit index =
      { turns := (sweep.active.filter (endsAfter turns turn.start)).foldl (fun turns other =>
          if endsAfter turns turn.start other then flag (flag turns index) other else turns)
          sweep.turns
        active := sweep.active.filter (endsAfter turns turn.start) ++ [index] } := by
    rw [Sweep.visit, visited, ← ends]
  rw [shape]
  have flags := swept.flags.foldl turn.start index
    (sweep.active.filter (endsAfter turns turn.start))
    fun other member => (List.mem_filter.mp member).2
  exact {
    flags := by
      rw [funext (visit_flags new active_iff)] at flags
      exact flags
    active := fun other member => by
      obtain old | last := List.mem_append.mp member
      · exact List.mem_append_left _ ((active_iff other).mp old).1
      · exact List.mem_append_right _ last
    passed := fun other member gone before found' next coming after found'' => by
      rw [List.mem_append, not_or] at gone
      obtain old | last := List.mem_append.mp member
      · by_cases active : other ∈ sweep.active
        · have stopped : ¬ turn.start < before.stop := fun ends =>
            gone.1 (List.mem_filter.mpr ⟨active, by simpa [endsAfter, found'] using ends⟩)
          exact (not_lt.mp stopped).trans (later next coming turn after found found'')
        · exact swept.passed other old active before found' next (List.mem_cons_of_mem _ coming) after
            found''
      · exact absurd last gone.2 }

theorem Swept.run (swept : Swept turns done rest sweep)
    (timed : ∀ turn ∈ turns, turn.start < turn.stop) (within : ∀ index ∈ rest, index < turns.length)
    (nodup : (done ++ rest).Nodup) (ordered : (done ++ rest).Pairwise (InOrder turns)) :
    Swept turns (done ++ rest) [] (rest.foldl Sweep.visit sweep) := by
  induction rest generalizing done sweep with
  | nil => simpa using swept
  | cons index rest ih =>
      have found := List.getElem?_eq_getElem (within index List.mem_cons_self)
      have cross := (List.pairwise_append.mp ordered).2.2
      have behind := (List.pairwise_append.mp ordered).2.1
      have new : index ∉ done := fun member =>
        (List.nodup_append.mp nodup).2.2 index member index List.mem_cons_self rfl
      have visited := swept.visit timed found new
        (fun other member => cross other member index List.mem_cons_self)
        (fun other member => (List.pairwise_cons.mp behind).1 other member)
      have whole : done ++ index :: rest = done ++ [index] ++ rest := by simp
      rw [whole] at nodup ordered ⊢
      exact ih visited (fun other member => within other (List.mem_cons_of_mem _ member)) nodup ordered

theorem sweepOrder_perm (turns : List Turn) : (sweepOrder turns).Perm (List.range turns.length) :=
  List.perm_insertionSort _ _

theorem sweepOrder_ordered (turns : List Turn) : (sweepOrder turns).Pairwise (InOrder turns) := by
  have total : Std.Total fun first second : Nat =>
    (turns[first]?.map Turn.start).getD 0 ≤ (turns[second]?.map Turn.start).getD 0 :=
      ⟨fun _ _ => le_total _ _⟩
  have trans : IsTrans Nat fun first second : Nat =>
    (turns[first]?.map Turn.start).getD 0 ≤ (turns[second]?.map Turn.start).getD 0 :=
      ⟨fun _ _ _ => le_trans⟩
  refine (List.pairwise_insertionSort _ _).imp ?_
  intro first second order turn other found found'
  simpa [found, found'] using order

/-- After the sweep a turn is flagged if and only if some other turn intersects it, and nothing
else in it has changed. -/
theorem markOverlap_iff (turns : List Turn) (timed : ∀ turn ∈ turns, turn.start < turn.stop)
    (clear : ∀ turn ∈ turns, turn.overlap = false) :
    (markOverlap turns).length = turns.length ∧
      ∀ (index : Nat) (turn : Turn), turns[index]? = some turn → ∃ marked,
        (markOverlap turns)[index]? = some marked ∧
          marked = { turn with overlap := marked.overlap } ∧
          (marked.overlap = true ↔ ∃ (place : Nat) (other : Turn), place ≠ index ∧
            turns[place]? = some other ∧ Intersects turn other) := by
  have fresh : Swept turns [] (sweepOrder turns) { turns := turns } := {
    flags := by simpa using Flagged.refl turns
    active := fun index never => by cases never
    passed := fun index never => by cases never }
  have order := sweepOrder_perm turns
  have swept := fresh.run timed (fun index member => List.mem_range.mp (order.mem_iff.mp member))
    (order.nodup_iff.mpr List.nodup_range) (sweepOrder_ordered turns)
  rw [List.nil_append] at swept
  have flags := swept.flags
  constructor
  · exact flags.length
  · intro index turn found
    have inside : index ∈ sweepOrder turns :=
      order.mem_iff.mpr (List.mem_range.mpr (List.getElem?_eq_some_iff.mp found).1)
    refine ⟨_, by rw [markOverlap, flags index, found]; rfl, rfl, ?_⟩
    simp only [clear turn (List.mem_of_getElem? found), Bool.false_or, decide_eq_true inside,
      Bool.true_and, List.any_eq_true]
    constructor
    · intro ⟨place, _, met⟩
      obtain ⟨apart, turn', other, again, found', intersects⟩ := meets_iff.mp met
      cases found.symm.trans again
      exact ⟨place, other, apart.symm, found', intersects⟩
    · intro ⟨place, other, apart, found', intersects⟩
      have listed := order.mem_iff.mpr (List.mem_range.mpr (List.getElem?_eq_some_iff.mp found').1)
      exact ⟨place, listed, meets_iff.mpr ⟨apart.symm, turn, other, found, found', intersects⟩⟩

example : (markOverlap [⟨10, 20, false, []⟩, ⟨30, 40, false, []⟩, ⟨19, 30, false, []⟩]).map
    Turn.overlap = [true, false, true] := by decide +kernel

theorem markOverlap_crosstalk : ((markOverlap [⟨10, 20, false, []⟩, ⟨39 / 2, 24, false, []⟩])[0]?).any
    Turn.overlap = true := by
  obtain ⟨-, marks⟩ := markOverlap_iff [⟨10, 20, false, []⟩, ⟨39 / 2, 24, false, []⟩]
    (by decide +kernel) (by decide)
  obtain ⟨marked, found, -, flagged⟩ := marks 0 ⟨10, 20, false, []⟩ rfl
  rw [found]
  exact flagged.mpr ⟨1, ⟨39 / 2, 24, false, []⟩, Nat.one_ne_zero, rfl, by decide +kernel⟩

end CityPods.Speakers
