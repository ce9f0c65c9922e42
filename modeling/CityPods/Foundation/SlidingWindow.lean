import Mathlib.Algebra.Order.BigOperators.Group.List
import Mathlib.Algebra.Order.Group.Unbundled.Basic
import Mathlib.Data.List.Induction

/-! # Sliding windows

Weighted events, in the order in which they were admitted, and what any window
of a fixed span holds of them. A limiter remembers an event until one a full span
later is admitted.
-/

namespace CityPods.Foundation.SlidingWindow

variable {α τ μ : Type*} [AddCommGroup τ] [LinearOrder τ] [IsOrderedAddMonoid τ]
  [AddCommMonoid μ] [PartialOrder μ] [IsOrderedAddMonoid μ]

section

variable (weight : α → μ) (counted other : α → Prop) [DecidablePred counted]
  [DecidablePred other]

def weightWhere (events : List α) : μ :=
  ((events.filter fun event => decide (counted event)).map weight).sum

variable {weight counted other} {events : List α}

omit [PartialOrder μ] [IsOrderedAddMonoid μ] in
@[simp] theorem weightWhere_nil : weightWhere weight counted [] = 0 := rfl

omit [PartialOrder μ] [IsOrderedAddMonoid μ] in
theorem weightWhere_cons (event : α) (events : List α) :
    weightWhere weight counted (event :: events) =
      (if counted event then weight event else 0) + weightWhere weight counted events := by
  unfold weightWhere
  by_cases own : counted event <;> simp [own]

omit [PartialOrder μ] [IsOrderedAddMonoid μ] in
theorem weightWhere_snoc (event : α) (events : List α) :
    weightWhere weight counted (events ++ [event]) =
      weightWhere weight counted events + if counted event then weight event else 0 := by
  unfold weightWhere
  rw [List.filter_append, List.map_append, List.sum_append]
  by_cases own : counted event <;> simp [own]

omit [PartialOrder μ] [IsOrderedAddMonoid μ] in
theorem weightWhere_perm {events later : List α} (same : events.Perm later) :
    weightWhere weight counted events = weightWhere weight counted later :=
  ((same.filter _).map weight).sum_eq

/-- Counting more events of non-negative weight gives no less. -/
theorem weightWhere_mono (nonneg : ∀ event ∈ events, 0 ≤ weight event)
    (implies : ∀ event ∈ events, counted event → other event) :
    weightWhere weight counted events ≤ weightWhere weight other events := by
  induction events with
  | nil => exact le_refl _
  | cons event rest induction =>
      have others := induction (fun later member => nonneg later (by simp [member]))
        (fun later member => implies later (by simp [member]))
      rw [weightWhere_cons, weightWhere_cons]
      refine add_le_add ?_ others
      by_cases own : counted event
      · rw [if_pos own, if_pos (implies event (by simp) own)]
      · rw [if_neg own]
        split
        · exact nonneg event (by simp)
        · exact le_refl 0

theorem weightWhere_le_sum (nonneg : ∀ event ∈ events, 0 ≤ weight event) :
    weightWhere weight counted events ≤ (events.map weight).sum := by
  calc weightWhere weight counted events
      ≤ weightWhere weight (fun _ => True) events :=
        weightWhere_mono nonneg fun _ _ _ => trivial
    _ = (events.map weight).sum := by simp [weightWhere]

theorem weightWhere_le_weightWhere {heavier : α → μ}
    (heavy : ∀ event ∈ events, weight event ≤ heavier event) :
    weightWhere weight counted events ≤ weightWhere heavier counted events :=
  List.sum_le_sum fun event member => heavy event (List.mem_filter.mp member).1

end

section

variable (span : τ) (time : α → τ) (weight : α → μ)

/-- What was admitted in the window of one span that ends at an instant. -/
def windowWeight (finish : τ) (events : List α) : μ :=
  weightWhere weight (fun event => finish - span < time event ∧ time event ≤ finish) events

variable {span time weight} {cap : μ} {events : List α}

/-- An event that fits the window ending with it, with all that was admitted before
and is not a full span earlier, keeps every window within the cap. -/
theorem windowWeight_snoc_le (nonneg : ∀ event, 0 ≤ weight event)
    (within : ∀ finish, windowWeight span time weight finish events ≤ cap) (event : α)
    (fits : weightWhere weight (fun earlier => time event - span < time earlier) events +
      weight event ≤ cap) (finish : τ) :
    windowWeight span time weight finish (events ++ [event]) ≤ cap := by
  unfold windowWeight
  rw [weightWhere_snoc]
  by_cases inside : finish - span < time event ∧ time event ≤ finish
  · rw [if_pos inside]
    refine le_trans ?_ fits
    gcongr
    refine weightWhere_mono (fun _ _ => nonneg _) fun earlier _ held => ?_
    exact lt_of_le_of_lt (sub_le_sub_right inside.2 span) held.1
  · rw [if_neg inside, add_zero]
    exact within finish

end

section

variable (span : τ) (time : α → τ)

/-- Each admitted event prunes what is a full span before it. -/
def remembered (events : List α) : List α :=
  events.foldl
    (fun kept event => kept.filter (fun earlier => decide (time event - span < time earlier)) ++
      [event]) []

/-- No event that is remembered past `low` has been pruned. -/
def KeepsAfter (low : τ) (events : List α) : Prop :=
  events.Pairwise fun earlier later => low < time earlier → time later < time earlier + span

variable {span time} {low : τ} {events : List α}

omit [IsOrderedAddMonoid τ] in
theorem remembered_snoc (event : α) :
    remembered span time (events ++ [event]) =
      (remembered span time events).filter
        (fun earlier => decide (time event - span < time earlier)) ++ [event] := by
  unfold remembered
  rw [List.foldl_append, List.foldl_cons, List.foldl_nil]

omit [IsOrderedAddMonoid τ] in
theorem remembered_subset {event : α} (member : event ∈ remembered span time events) :
    event ∈ events := by
  induction events using List.reverseRecOn with
  | nil => exact member
  | append_singleton events last induction =>
      rw [remembered_snoc] at member
      rcases List.mem_append.mp member with earlier | own
      · exact List.mem_append_left _ (induction (List.mem_filter.mp earlier).1)
      · exact List.mem_append_right _ own

/-- Where nothing after `low` has been pruned, all of it is remembered. -/
theorem remembered_after (keeps : KeepsAfter span time low events) {counted : α → Prop}
    [DecidablePred counted] (late : ∀ event, counted event → low < time event) :
    (remembered span time events).filter (fun event => decide (counted event)) =
      events.filter fun event => decide (counted event) := by
  induction events using List.reverseRecOn with
  | nil => rfl
  | append_singleton events last induction =>
      obtain ⟨before, _, across⟩ := List.pairwise_append.mp keeps
      rw [remembered_snoc, List.filter_append, List.filter_append, ← induction before,
        List.filter_filter]
      congr 1
      refine List.filter_congr fun event member => ?_
      by_cases own : counted event
      · have near := across event (remembered_subset member) last (by simp) (late event own)
        simp [own, sub_lt_iff_lt_add.mpr near]
      · simp [own]

omit [IsOrderedAddMonoid τ] in
theorem KeepsAfter.mono {high : τ} (keeps : KeepsAfter span time low events) (later : low ≤ high) :
    KeepsAfter span time high events :=
  keeps.imp fun near after => near (lt_of_le_of_lt later after)

/-- An event prunes only what is a full span before it. -/
theorem KeepsAfter.snoc (keeps : KeepsAfter span time low events) (event : α)
    (reached : low ≤ time event - span) :
    KeepsAfter span time (time event - span) (events ++ [event]) := by
  refine List.pairwise_append.mpr ⟨keeps.mono reached, List.pairwise_singleton _ _, ?_⟩
  intro earlier _ last own after
  rw [List.mem_singleton.mp own]
  exact sub_lt_iff_lt_add.mp after

end

/-- Events that are spaced by `gap` are at most `count` in a stretch of `count` gaps. -/
theorem length_le_of_spaced {gap : τ} (time : α → τ) :
    ∀ {events : List α} (count : Nat) (low : τ),
      (events.Pairwise fun earlier later => time earlier + gap ≤ time later) →
      (∀ event ∈ events, low ≤ time event ∧ time event < low + count • gap) →
        events.length ≤ count
  | [], _, _, _, _ => Nat.zero_le _
  | event :: rest, 0, low, _, within => by
      obtain ⟨above, below⟩ := within event (by simp)
      rw [zero_nsmul, add_zero] at below
      exact absurd below (not_lt.mpr above)
  | event :: rest, count + 1, low, spaced, within => by
      obtain ⟨after, others⟩ := List.pairwise_cons.mp spaced
      have above := (within event (by simp)).1
      refine Nat.succ_le_succ (length_le_of_spaced time count (low + gap) others ?_)
      intro later member
      refine ⟨(add_le_add_left above gap).trans (after later member), ?_⟩
      have below := (within later (by simp [member])).2
      rw [succ_nsmul'] at below
      rwa [add_assoc]

end CityPods.Foundation.SlidingWindow
