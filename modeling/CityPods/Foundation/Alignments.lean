import Mathlib.Data.List.Induction
import Mathlib.Data.List.Range

/-! # Alignments

Two sequences of positions side by side, each position once and in order, and the least
number of changes that an alignment of them makes.
-/

namespace CityPods.Foundation

/-- A position of the left sequence, of the right one, or of both. -/
abbrev AlignedPair := Option Nat × Option Nat

namespace Alignments

structure Aligns (rows columns : Nat) (pairs : List AlignedPair) : Prop where
  left : pairs.filterMap Prod.fst = List.range rows
  right : pairs.filterMap Prod.snd = List.range columns
  full : ∀ pair ∈ pairs, pair ≠ (none, none)

/-- What is on one side only, or joins what is not the same. -/
def changes (same : Nat → Nat → Bool) : AlignedPair → Bool
  | (some row, some column) => !same row column
  | _ => true

def cost (same : Nat → Nat → Bool) (pairs : List AlignedPair) : Nat := pairs.countP (changes same)

section

variable {rows columns : Nat} {pairs : List AlignedPair}

theorem Aligns.nil : Aligns 0 0 [] := ⟨rfl, rfl, fun _ member => by cases member⟩

theorem Aligns.both (aligns : Aligns rows columns pairs) :
    Aligns (rows + 1) (columns + 1) (pairs ++ [(some rows, some columns)]) where
  left := by simp [aligns.left, List.range_succ]
  right := by simp [aligns.right, List.range_succ]
  full := List.forall_mem_append.mpr ⟨aligns.full, by simp⟩

theorem Aligns.onLeft (aligns : Aligns rows columns pairs) :
    Aligns (rows + 1) columns (pairs ++ [(some rows, none)]) where
  left := by simp [aligns.left, List.range_succ]
  right := by simp [aligns.right]
  full := List.forall_mem_append.mpr ⟨aligns.full, by simp⟩

theorem Aligns.onRight (aligns : Aligns rows columns pairs) :
    Aligns rows (columns + 1) (pairs ++ [(none, some columns)]) where
  left := by simp [aligns.left]
  right := by simp [aligns.right, List.range_succ]
  full := List.forall_mem_append.mpr ⟨aligns.full, by simp⟩

/-- The last of the first positions comes last. -/
theorem range_eq_append {count last : Nat} {earlier : List Nat}
    (split : earlier ++ [last] = List.range count) :
    count = last + 1 ∧ earlier = List.range last := by
  cases count with
  | zero => simp at split
  | succ count =>
      rw [List.range_succ] at split
      obtain ⟨same, ends⟩ := List.append_inj' split rfl
      cases ends
      exact ⟨rfl, same⟩

inductive Grown : Nat → Nat → List AlignedPair → Prop
  | nil : Grown 0 0 []
  | both {row column : Nat} {pairs : List AlignedPair} (earlier : Grown row column pairs) :
      Grown (row + 1) (column + 1) (pairs ++ [(some row, some column)])
  | onLeft {row column : Nat} {pairs : List AlignedPair} (earlier : Grown row column pairs) :
      Grown (row + 1) column (pairs ++ [(some row, none)])
  | onRight {row column : Nat} {pairs : List AlignedPair} (earlier : Grown row column pairs) :
      Grown row (column + 1) (pairs ++ [(none, some column)])

theorem Aligns.grown (aligns : Aligns rows columns pairs) : Grown rows columns pairs := by
  induction pairs using List.reverseRecOn generalizing rows columns with
  | nil =>
      obtain rfl : rows = 0 := List.range_eq_nil.mp aligns.left.symm
      obtain rfl : columns = 0 := List.range_eq_nil.mp aligns.right.symm
      exact .nil
  | append_singleton earlier pair induction =>
      obtain ⟨left, right, full⟩ := aligns
      obtain ⟨before, here⟩ := List.forall_mem_append.mp full
      rw [List.filterMap_append] at left right
      rcases pair with ⟨_ | row, _ | column⟩
      · exact absurd rfl (here _ List.mem_cons_self)
      · obtain ⟨rfl, rest⟩ := range_eq_append right
        exact .onRight (induction ⟨by simpa using left, rest, before⟩)
      · obtain ⟨rfl, rest⟩ := range_eq_append left
        exact .onLeft (induction ⟨rest, by simpa using right, before⟩)
      · obtain ⟨rfl, rest⟩ := range_eq_append left
        obtain ⟨rfl, others⟩ := range_eq_append right
        exact .both (induction ⟨rest, others, before⟩)

end

section

variable (same : Nat → Nat → Bool)

def distance : Nat → Nat → Nat
  | 0, column => column
  | row + 1, 0 => row + 1
  | row + 1, column + 1 =>
      min (min (distance row (column + 1) + 1) (distance (row + 1) column + 1))
        (distance row column + if same row column then 0 else 1)
  termination_by row column => row + column

variable {same} {row column : Nat}

@[simp] theorem distance_zero_left : distance same 0 column = column := by
  rw [distance]

@[simp] theorem distance_zero_right : distance same row 0 = row := by
  cases row <;> rw [distance]

theorem distance_succ : distance same (row + 1) (column + 1) =
    min (min (distance same row (column + 1) + 1) (distance same (row + 1) column + 1))
      (distance same row column + if same row column then 0 else 1) := by
  rw [distance]

theorem distance_onLeft : distance same (row + 1) column ≤ distance same row column + 1 := by
  cases column with
  | zero => simp
  | succ column =>
      rw [distance_succ]
      exact (min_le_left _ _).trans (min_le_left _ _)

theorem distance_onRight : distance same row (column + 1) ≤ distance same row column + 1 := by
  cases row with
  | zero => simp
  | succ row =>
      rw [distance_succ]
      exact (min_le_left _ _).trans (min_le_right _ _)

theorem distance_both : distance same (row + 1) (column + 1) ≤
    distance same row column + if same row column then 0 else 1 := by
  rw [distance_succ]
  exact min_le_right _ _

theorem cost_append (pairs : List AlignedPair) (pair : AlignedPair) :
    cost same (pairs ++ [pair]) = cost same pairs + if changes same pair then 1 else 0 := by
  rw [cost, List.countP_append, List.countP_singleton]
  rfl

theorem cost_both (pairs : List AlignedPair) : cost same (pairs ++ [(some row, some column)]) =
    cost same pairs + if same row column then 0 else 1 := by
  rw [cost_append]
  cases found : same row column <;> simp [changes, found]

theorem cost_onLeft (pairs : List AlignedPair) :
    cost same (pairs ++ [(some row, none)]) = cost same pairs + 1 :=
  cost_append pairs _

theorem cost_onRight (pairs : List AlignedPair) :
    cost same (pairs ++ [(none, some column)]) = cost same pairs + 1 :=
  cost_append pairs _

/-- No alignment makes fewer changes. -/
theorem distance_le_cost {rows columns : Nat} {pairs : List AlignedPair}
    (aligns : Aligns rows columns pairs) : distance same rows columns ≤ cost same pairs := by
  have grown := aligns.grown
  clear aligns
  induction grown with
  | nil => simp
  | both _ induction =>
      rw [cost_both]
      exact distance_both.trans (Nat.add_le_add_right induction _)
  | onLeft _ induction =>
      rw [cost_onLeft]
      exact distance_onLeft.trans (Nat.add_le_add_right induction 1)
  | onRight _ induction =>
      rw [cost_onRight]
      exact distance_onRight.trans (Nat.add_le_add_right induction 1)

/-- Read from the other side, the sequences are as far apart. -/
theorem distance_swap (same : Nat → Nat → Bool) (row column : Nat) :
    distance (fun left right => same right left) column row = distance same row column := by
  induction row, column using distance.induct with
  | case1 column => simp
  | case2 row => simp
  | case3 row column left above diagonal =>
      rw [distance_succ, distance_succ, left, above, diagonal, min_comm (distance same _ _ + 1)]

end

end Alignments

end CityPods.Foundation
