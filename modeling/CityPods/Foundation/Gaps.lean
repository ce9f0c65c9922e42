import Mathlib.Algebra.Order.Group.Abs
import Mathlib.Algebra.Order.Group.Defs
import Mathlib.Data.List.Pairwise

/-! # Gaps

What is left of an interval when cuts are taken out of it in order, where a rest
that is no longer than a tolerance is left out too.
-/

namespace CityPods.Foundation

namespace Gaps

variable {τ : Type} [AddCommGroup τ] [LinearOrder τ]

/-- One interval ends before the other begins. -/
def Apart (first second : τ × τ) : Prop := first.2 ≤ second.1 ∨ second.2 ≤ first.1

/-- Each cut ends before the next begins. -/
def InOrder (cuts : List (τ × τ)) : Prop := cuts.Pairwise fun first second => first.2 ≤ second.1

/-- The instant is farther than the tolerance from both ends of every cut. -/
def FarFrom (tolerance : τ) (cuts : List (τ × τ)) (instant : τ) : Prop :=
  ∀ cut ∈ cuts, tolerance < |instant - cut.1| ∧ tolerance < |instant - cut.2|

def Within (interval : τ × τ) (instant : τ) : Prop := interval.1 ≤ instant ∧ instant ≤ interval.2

variable (tolerance finish : τ)

def gaps : τ → List (τ × τ) → List (τ × τ)
  | cursor, [] => if cursor < finish - tolerance then [(cursor, finish)] else []
  | cursor, (cutStart, cutEnd) :: rest =>
      if cursor + tolerance < cutStart then (cursor, cutStart) :: gaps cutEnd rest
      else gaps cutEnd rest

/-- Cuts that are taken out from the cursor on; the first may begin before it. -/
structure Ahead (cursor : τ) (cuts : List (τ × τ)) : Prop where
  proper : ∀ cut ∈ cuts, cut.1 ≤ cut.2
  order : InOrder cuts
  ahead : ∀ cut ∈ cuts, cursor ≤ cut.2

variable {tolerance finish} {cursor : τ} {cuts : List (τ × τ)} {cut : τ × τ}

omit [AddCommGroup τ] in
theorem Ahead.tail (ahead : Ahead cursor (cut :: cuts)) : Ahead cut.2 cuts := by
  have parts := List.pairwise_cons.mp ahead.order
  have proper : ∀ other ∈ cuts, other.1 ≤ other.2 := fun other inside =>
    ahead.proper other (List.mem_cons_of_mem _ inside)
  exact ⟨proper, parts.2, fun other inside => (parts.1 other inside).trans (proper other inside)⟩

theorem mem_gaps_cons {gap : τ × τ} :
    gap ∈ gaps tolerance finish cursor (cut :: cuts) ↔
      cursor + tolerance < cut.1 ∧ gap = (cursor, cut.1) ∨
        gap ∈ gaps tolerance finish cut.2 cuts := by
  rw [gaps]
  split
  · next wide => rw [List.mem_cons]; simp [wide]
  · next narrow => simp [narrow]

variable {gap : τ × τ}

theorem mem_gaps_nil :
    gap ∈ gaps tolerance finish cursor [] ↔
      cursor < finish - tolerance ∧ gap = (cursor, finish) := by
  rw [gaps]
  split
  · next room => simp [room]
  · next full => simp [full]

theorem le_start_of_mem_gaps (ahead : Ahead cursor cuts)
    (member : gap ∈ gaps tolerance finish cursor cuts) : cursor ≤ gap.1 := by
  induction cuts generalizing cursor with
  | nil => rw [(mem_gaps_nil.mp member).2]
  | cons cut rest induction =>
      rcases mem_gaps_cons.mp member with ⟨_, same⟩ | later
      · rw [same]
      · exact (ahead.ahead cut List.mem_cons_self).trans (induction ahead.tail later)

theorem stop_le_of_mem_gaps (starts : ∀ cut ∈ cuts, cut.1 ≤ finish)
    (member : gap ∈ gaps tolerance finish cursor cuts) : gap.2 ≤ finish := by
  induction cuts generalizing cursor with
  | nil => rw [(mem_gaps_nil.mp member).2]
  | cons cut rest induction =>
      rcases mem_gaps_cons.mp member with ⟨_, same⟩ | later
      · rw [same]
        exact starts cut List.mem_cons_self
      · exact induction (fun other inside => starts other (List.mem_cons_of_mem _ inside)) later

theorem apart_of_mem_gaps (ahead : Ahead cursor cuts)
    (member : gap ∈ gaps tolerance finish cursor cuts) (taken : cut ∈ cuts) :
    gap.2 ≤ cut.1 ∨ cut.2 ≤ gap.1 := by
  induction cuts generalizing cursor with
  | nil => cases taken
  | cons first rest induction =>
      have later := (List.pairwise_cons.mp ahead.order).1
      rcases mem_gaps_cons.mp member with ⟨_, same⟩ | after
      · rw [same]
        rcases List.mem_cons.mp taken with head | tail
        · exact .inl (le_of_eq (congrArg Prod.fst head.symm))
        · exact .inl ((ahead.proper first List.mem_cons_self).trans (later cut tail))
      · rcases List.mem_cons.mp taken with head | tail
        · rw [head]
          exact .inr (le_start_of_mem_gaps ahead.tail after)
        · exact induction ahead.tail after tail

theorem inOrder_gaps (ahead : Ahead cursor cuts) :
    InOrder (gaps tolerance finish cursor cuts) := by
  induction cuts generalizing cursor with
  | nil =>
      rw [gaps, InOrder]
      split
      · exact List.pairwise_singleton _ _
      · exact List.Pairwise.nil
  | cons cut rest induction =>
      rw [gaps]
      split
      · apply List.pairwise_cons.mpr
        refine ⟨fun gap member => ?_, induction ahead.tail⟩
        exact (ahead.proper cut List.mem_cons_self).trans (le_start_of_mem_gaps ahead.tail member)
      · exact induction ahead.tail

variable [IsOrderedAddMonoid τ]

theorem start_lt_stop_of_mem_gaps (nonneg : 0 ≤ tolerance)
    (member : gap ∈ gaps tolerance finish cursor cuts) : gap.1 < gap.2 := by
  induction cuts generalizing cursor with
  | nil =>
      obtain ⟨room, same⟩ := mem_gaps_nil.mp member
      rw [same]
      exact room.trans_le (sub_le_self finish nonneg)
  | cons cut rest induction =>
      rcases mem_gaps_cons.mp member with ⟨wide, same⟩ | later
      · rw [same]
        exact (le_add_of_nonneg_right nonneg).trans_lt wide
      · exact induction later

variable {instant : τ}

theorem exists_gap (ahead : Ahead cursor cuts)
    (after : cursor ≤ instant) (before : instant ≤ finish) (far : FarFrom tolerance cuts instant)
    (edge : cuts = [] → tolerance < |instant - cursor|) (kept : ∀ cut ∈ cuts, ¬Within cut instant) :
    ∃ gap ∈ gaps tolerance finish cursor cuts, Within gap instant := by
  induction cuts generalizing cursor with
  | nil =>
      have apart := edge rfl
      rw [abs_of_nonneg (sub_nonneg.mpr after)] at apart
      have room : cursor < finish - tolerance :=
        lt_sub_comm.mp (apart.trans_le (sub_le_sub_right before cursor))
      exact ⟨(cursor, finish), mem_gaps_nil.mpr ⟨room, rfl⟩, after, before⟩
  | cons cut rest induction =>
      have ends := far cut List.mem_cons_self
      rcases le_total instant cut.1 with early | late
      · rw [abs_of_nonpos (sub_nonpos.mpr early), neg_sub] at ends
        have wide : cursor + tolerance < cut.1 :=
          (add_le_add_left after tolerance).trans_lt (lt_sub_iff_add_lt'.mp ends.1)
        exact ⟨(cursor, cut.1), mem_gaps_cons.mpr (.inl ⟨wide, rfl⟩), after, early⟩
      · have past : cut.2 ≤ instant := by
          by_contra inside
          exact kept cut List.mem_cons_self ⟨late, le_of_not_ge inside⟩
        obtain ⟨gap, member, within⟩ := induction ahead.tail past
          (fun other inside => far other (List.mem_cons_of_mem _ inside)) (fun _ => ends.2)
          (fun other inside => kept other (List.mem_cons_of_mem _ inside))
        exact ⟨gap, mem_gaps_cons.mpr (.inr member), within⟩

theorem within_gap_iff (nonneg : 0 ≤ tolerance) (ahead : Ahead cursor cuts) (nonempty : cuts ≠ [])
    (after : cursor ≤ instant) (before : instant ≤ finish) (far : FarFrom tolerance cuts instant) :
    (∃ gap ∈ gaps tolerance finish cursor cuts, Within gap instant) ↔
      ∀ cut ∈ cuts, ¬Within cut instant := by
  constructor
  · intro ⟨gap, member, inside⟩ cut taken within
    have ends := far cut taken
    rcases apart_of_mem_gaps ahead member taken with early | late
    · have same : instant = cut.1 := le_antisymm (inside.2.trans early) within.1
      rw [same, sub_self, abs_zero] at ends
      exact absurd nonneg (not_le_of_gt ends.1)
    · have same : instant = cut.2 := le_antisymm within.2 (late.trans inside.1)
      rw [same, sub_self, abs_zero] at ends
      exact absurd nonneg (not_le_of_gt ends.2)
  · exact exists_gap ahead after before far fun none => absurd none nonempty

/-- Without a gap, nothing longer than the tolerance is left. -/
theorem length_le_of_gaps_nil (none : gaps tolerance finish cursor cuts = [])
    {interval : τ × τ} (after : cursor ≤ interval.1) (before : interval.2 ≤ finish)
    (apart : ∀ cut ∈ cuts, Apart interval cut) : interval.2 - interval.1 ≤ tolerance := by
  induction cuts generalizing cursor with
  | nil =>
      have full : ¬cursor < finish - tolerance := by
        intro room
        rw [gaps, if_pos room] at none
        cases none
      exact (sub_le_sub before after).trans (sub_le_comm.mp (not_lt.mp full))
  | cons cut rest induction =>
      have narrow : ¬cursor + tolerance < cut.1 := by
        intro wide
        rw [gaps, if_pos wide] at none
        cases none
      rw [gaps, if_neg narrow] at none
      rcases apart cut List.mem_cons_self with early | late
      · exact (sub_le_sub early after).trans (sub_le_iff_le_add'.mpr (not_lt.mp narrow))
      · exact induction none late fun other inside => apart other (List.mem_cons_of_mem _ inside)

end Gaps

end CityPods.Foundation
