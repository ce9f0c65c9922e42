import CityPods.Foundation.Alignments
import CityPods.Foundation.Loop

/-! # Agreement of two texts

The edit distance of two lists of tokens by its table, and the alignment that is read off the
table backwards.
-/

namespace CityPods.Quality

open Foundation
open Foundation.Alignments (Aligns cost distance)

/-- `dp[i][j]` -/
abbrev Table := Nat → Nat → Nat

def Table.put (dp : Table) (row column value : Nat) : Table := fun i j =>
  if i = row ∧ j = column then value else dp i j

def borders : Table := fun i j => if j = 0 then i else if i = 0 then j else 0

section

variable {α : Type} [DecidableEq α] (a b : List α)

def sameToken (row column : Nat) : Bool := a[row]? == b[column]?

def tokenCost (row column : Nat) : Nat := if sameToken a b row column then 0 else 1

def cell (dp : Table) (i j : Nat) : Nat :=
  min (min (dp (i - 1) j + 1) (dp i (j - 1) + 1))
    (dp (i - 1) (j - 1) + tokenCost a b (i - 1) (j - 1))

def fillRow (dp : Table) (row : Nat) : Table :=
  (List.range b.length).foldl
    (fun dp column => dp.put (row + 1) (column + 1) (cell a b dp (row + 1) (column + 1))) dp

def fill : Table := (List.range a.length).foldl (fillRow a b) borders

/-- The pairs are newest first, and so in the order of the list that is reversed at the end. -/
structure WayBack where
  i : Nat
  j : Nat
  pairs : List AlignedPair

/-- Nothing, where an index would fall below zero. -/
def goBack (dp : Table) (state : WayBack) : WayBack ⊕ Option (List AlignedPair) :=
  let ⟨i, j, pairs⟩ := state
  if i = 0 ∧ j = 0 then .inr (some pairs)
  else if 0 < i ∧ 0 < j ∧ dp i j = dp (i - 1) (j - 1) + tokenCost a b (i - 1) (j - 1) then
    .inl ⟨i - 1, j - 1, (some (i - 1), some (j - 1)) :: pairs⟩
  else if 0 < i ∧ dp i j = dp (i - 1) j + 1 then .inl ⟨i - 1, j, (some (i - 1), none) :: pairs⟩
  else if 0 < j then .inl ⟨i, j - 1, (none, some (j - 1)) :: pairs⟩
  else .inr none

def levenshteinAlignment : Option (Nat × List AlignedPair) :=
  let dp := fill a b
  let pairs := (Loop.run (goBack a b dp) (a.length + b.length + 1) ⟨a.length, b.length, []⟩).join
  pairs.map fun pairs => (dp a.length b.length, pairs)

/-- The rows above are right, and the next one is up to the column. -/
def Filled (dp : Table) (row column : Nat) : Prop :=
  ∀ i j, (j = 0 ∨ i ≤ row ∧ j ≤ b.length ∨ i = row + 1 ∧ j ≤ column) →
    dp i j = distance (sameToken a b) i j

variable {a b} {dp : Table} {row column : Nat}

theorem filled_borders : Filled a b borders 0 0 := by
  intro i j inside
  by_cases first : j = 0
  · subst first
    simp [borders]
  · obtain rfl : i = 0 := by omega
    simp [borders, first]

theorem Filled.put (filled : Filled a b dp row column) (within : column < b.length) :
    Filled a b (dp.put (row + 1) (column + 1) (cell a b dp (row + 1) (column + 1))) row
      (column + 1) := by
  intro i j inside
  unfold Table.put
  split
  · next here =>
    obtain ⟨rfl, rfl⟩ := here
    rw [Alignments.distance_succ, cell, Nat.add_sub_cancel, Nat.add_sub_cancel,
      filled row (column + 1) (by omega), filled (row + 1) column (by omega),
      filled row column (by omega), tokenCost]
  · next elsewhere => exact filled i j (by omega)

theorem Filled.fillRow (filled : Filled a b dp row 0) :
    Filled a b (fillRow a b dp row) (row + 1) 0 := by
  have upTo (count : Nat) (within : count ≤ b.length) : Filled a b
      ((List.range count).foldl (fun dp column =>
        dp.put (row + 1) (column + 1) (cell a b dp (row + 1) (column + 1))) dp) row count := by
    induction count with
    | zero => exact filled
    | succ count induction =>
        rw [List.range_succ, List.foldl_append]
        exact (induction (Nat.le_of_succ_le within)).put within
  intro i j inside
  exact upTo b.length (le_refl _) i j (by omega)

theorem filled_fill : Filled a b (fill a b) a.length 0 := by
  have upTo (count : Nat) : Filled a b ((List.range count).foldl (Quality.fillRow a b) borders)
      count 0 := by
    induction count with
    | zero => exact filled_borders
    | succ count induction =>
        rw [List.range_succ, List.foldl_append]
        exact induction.fillRow
  exact upTo a.length

/-- A step back leads to a smaller corner of the table, whose alignments of least cost its pair
extends to such alignments. -/
structure Leads (a b : List α) (i j i' j' : Nat) (pair : AlignedPair) : Prop where
  closer : i' + j' < i + j
  above : i' ≤ i
  before : j' ≤ j
  extended : ∀ {pairs}, Aligns i' j' pairs →
    cost (sameToken a b) pairs = distance (sameToken a b) i' j' →
      Aligns i j (pairs ++ [pair]) ∧
        cost (sameToken a b) (pairs ++ [pair]) = distance (sameToken a b) i j

theorem Leads.both (accounts : distance (sameToken a b) (row + 1) (column + 1) =
    distance (sameToken a b) row column + tokenCost a b row column) :
    Leads a b (row + 1) (column + 1) row column (some row, some column) where
  closer := by omega
  above := Nat.le_succ row
  before := Nat.le_succ column
  extended aligns least := ⟨aligns.both, by rw [Alignments.cost_both, least, accounts, tokenCost]⟩

theorem Leads.onLeft (accounts : distance (sameToken a b) (row + 1) column =
    distance (sameToken a b) row column + 1) :
    Leads a b (row + 1) column row column (some row, none) where
  closer := by omega
  above := Nat.le_succ row
  before := le_refl column
  extended aligns least := ⟨aligns.onLeft, by rw [Alignments.cost_onLeft, least, accounts]⟩

theorem Leads.onRight (accounts : distance (sameToken a b) row (column + 1) =
    distance (sameToken a b) row column + 1) :
    Leads a b row (column + 1) row column (none, some column) where
  closer := by omega
  above := le_refl row
  before := Nat.le_succ column
  extended aligns least := ⟨aligns.onRight, by rw [Alignments.cost_onRight, least, accounts]⟩

/-- Wherever the way back stands, one of the three neighbours accounts for the cell. -/
theorem goBack_leads (filled : Filled a b dp a.length 0) {i j : Nat} (inside : i ≤ a.length)
    (within : j ≤ b.length) (far : ¬ (i = 0 ∧ j = 0)) (pairs : List AlignedPair) :
    ∃ i' j' pair, goBack a b dp ⟨i, j, pairs⟩ = .inl ⟨i', j', pair :: pairs⟩ ∧
      Leads a b i j i' j' pair := by
  have read (row column : Nat) (upper : row ≤ i) (left : column ≤ j) :
      dp row column = distance (sameToken a b) row column := filled row column (by omega)
  simp only [goBack]
  rw [if_neg far]
  split
  · next diagonal =>
    obtain ⟨row, rfl⟩ := Nat.exists_eq_succ_of_ne_zero diagonal.1.ne'
    obtain ⟨column, rfl⟩ := Nat.exists_eq_succ_of_ne_zero diagonal.2.1.ne'
    have accounts := diagonal.2.2
    rw [read _ _ (le_refl _) (le_refl _), read _ _ (Nat.sub_le ..) (Nat.sub_le ..)] at accounts
    exact ⟨row, column, _, rfl, .both accounts⟩
  · next unequal =>
    split
    · next upper =>
      obtain ⟨row, rfl⟩ := Nat.exists_eq_succ_of_ne_zero upper.1.ne'
      have accounts := upper.2
      rw [read _ _ (le_refl _) (le_refl _), read _ _ (Nat.sub_le ..) (le_refl _)] at accounts
      exact ⟨row, j, _, rfl, .onLeft accounts⟩
    · next lower =>
      cases i with
      | zero =>
          obtain ⟨column, rfl⟩ := Nat.exists_eq_succ_of_ne_zero fun first => far ⟨rfl, first⟩
          exact ⟨0, column, _, if_pos (Nat.succ_pos column), .onRight (by simp)⟩
      | succ row =>
          cases j with
          | zero =>
              have border : dp (row + 1) 0 = dp row 0 + 1 := by
                rw [read _ _ (le_refl _) (le_refl _), read _ _ (Nat.le_succ row) (le_refl _)]
                simp
              exact absurd ⟨Nat.succ_pos row, border⟩ lower
          | succ column =>
              refine ⟨row + 1, column, _, if_pos (Nat.succ_pos column), .onRight ?_⟩
              rw [read _ _ (le_refl _) (le_refl _), Nat.add_sub_cancel, Nat.add_sub_cancel,
                read _ _ (Nat.le_succ row) (Nat.le_succ column)] at unequal
              rw [read _ _ (le_refl _) (le_refl _), Nat.add_sub_cancel,
                read _ _ (Nat.le_succ row) (le_refl _)] at lower
              have least : distance (sameToken a b) (row + 1) (column + 1) = _ :=
                Alignments.distance_succ
              unfold tokenCost at unequal
              omega

/-- From any cell the way back reaches the corner with an alignment of least cost. -/
theorem run_goBack (filled : Filled a b dp a.length 0) (fuel : Nat) {i j : Nat}
    (inside : i ≤ a.length) (within : j ≤ b.length) (enough : i + j ≤ fuel)
    (pairs : List AlignedPair) :
    ∃ found, Loop.run (goBack a b dp) (fuel + 1) ⟨i, j, pairs⟩ = some (some (found ++ pairs)) ∧
      Aligns i j found ∧ cost (sameToken a b) found = distance (sameToken a b) i j := by
  induction fuel generalizing i j pairs with
  | zero =>
      obtain ⟨rfl, rfl⟩ : i = 0 ∧ j = 0 := by omega
      exact ⟨[], rfl, .nil, by simp [cost]⟩
  | succ fuel induction =>
      by_cases far : i = 0 ∧ j = 0
      · obtain ⟨rfl, rfl⟩ := far
        exact ⟨[], rfl, .nil, by simp [cost]⟩
      · obtain ⟨i', j', pair, moved, leads⟩ := goBack_leads filled inside within far pairs
        have closer := leads.closer
        obtain ⟨found, ran, aligns, least⟩ := induction (leads.above.trans inside)
          (leads.before.trans within) (by omega) (pair :: pairs)
        refine ⟨found ++ [pair], ?_, leads.extended aligns least⟩
        rw [Loop.run, moved, List.append_assoc]
        exact ran

theorem levenshteinAlignment_eq (a b : List α) : ∃ pairs,
    levenshteinAlignment a b = some (distance (sameToken a b) a.length b.length, pairs) ∧
      Aligns a.length b.length pairs ∧
      cost (sameToken a b) pairs = distance (sameToken a b) a.length b.length := by
  obtain ⟨pairs, ran, aligns, least⟩ := run_goBack (filled_fill (a := a) (b := b))
    (a.length + b.length) (le_refl _) (le_refl _) (le_refl _) []
  refine ⟨pairs, ?_, aligns, least⟩
  rw [List.append_nil] at ran
  simp only [levenshteinAlignment]
  rw [ran, filled_fill a.length b.length (by omega)]
  rfl

/-- The result is an alignment of the two texts with the returned number of changes, which no
alignment falls below; and the texts in the other order are as far apart. -/
theorem levenshteinAlignment_least (a b : List α) : ∃ least pairs,
    levenshteinAlignment a b = some (least, pairs) ∧ Aligns a.length b.length pairs ∧
      cost (sameToken a b) pairs = least ∧
      (∀ other, Aligns a.length b.length other → least ≤ cost (sameToken a b) other) ∧
      (levenshteinAlignment b a).map Prod.fst = some least := by
  obtain ⟨pairs, returned, aligns, least⟩ := levenshteinAlignment_eq a b
  obtain ⟨back, swapped, _, _⟩ := levenshteinAlignment_eq b a
  refine ⟨_, pairs, returned, aligns, least, fun other => Alignments.distance_le_cost, ?_⟩
  have mirrored : sameToken b a = fun left right => sameToken a b right left := by
    funext left right
    exact Bool.beq_comm
  rw [swapped, mirrored, Alignments.distance_swap]
  rfl

end

example : levenshteinAlignment ["call", "to", "order"] ["call", "order"] =
    some (1, [(some 0, some 0), (some 1, none), (some 2, some 1)]) := by
  decide +kernel

end CityPods.Quality
