import Mathlib.Data.List.Basic

/-! # Secondary indexes

A table of index rows, each owned by one key of a primary table. What the index
holds for an owner is kept apart from what it holds for the others.
-/

namespace CityPods.Foundation.SecondaryIndex

variable {ρ κ : Type} [DecidableEq ρ]

/-- `INSERT OR IGNORE` of one row. -/
def insertOrIgnore (rows : List ρ) (row : ρ) : List ρ := if row ∈ rows then rows else rows ++ [row]

def insertAll (rows added : List ρ) : List ρ := added.foldl insertOrIgnore rows

def deleteAll (rows removed : List ρ) : List ρ := rows.filter fun row => decide (row ∉ removed)

variable {rows : List ρ} {row : ρ}

@[simp] theorem mem_insertOrIgnore {other : ρ} :
    other ∈ insertOrIgnore rows row ↔ other ∈ rows ∨ other = row := by
  unfold insertOrIgnore
  split
  · next present =>
    constructor
    · exact .inl
    · rintro (member | rfl)
      · exact member
      · exact present
  · simp

@[simp] theorem mem_insertAll {added : List ρ} :
    row ∈ insertAll rows added ↔ row ∈ rows ∨ row ∈ added := by
  induction added generalizing rows with
  | nil => simp [insertAll]
  | cons head rest induction =>
      show row ∈ insertAll (insertOrIgnore rows head) rest ↔ _
      rw [induction, mem_insertOrIgnore, List.mem_cons, or_assoc]

@[simp] theorem mem_deleteAll {removed : List ρ} :
    row ∈ deleteAll rows removed ↔ row ∈ rows ∧ row ∉ removed := by
  simp [deleteAll]

/-- The rows owned by `key` are exactly `entries`. -/
def Holds (owner : ρ → κ) (rows : List ρ) (key : κ) (entries : List ρ) : Prop :=
  ∀ row, owner row = key → (row ∈ rows ↔ row ∈ entries)

section

variable {owner : ρ → κ} {rows entries : List ρ} {key : κ}

omit [DecidableEq ρ] in
theorem Holds.nil : Holds owner [] key [] := fun _ _ => Iff.rfl

theorem Holds.insertAll (empty : Holds owner rows key []) (added : List ρ) :
    Holds owner (insertAll rows added) key added := by
  intro row owned
  have absent : row ∉ rows := fun member => List.not_mem_nil ((empty row owned).mp member)
  simp [absent]

theorem Holds.insertAll_other (held : Holds owner rows key entries) {added : List ρ}
    (foreign : ∀ row ∈ added, owner row ≠ key) :
    Holds owner (SecondaryIndex.insertAll rows added) key entries := by
  intro row owned
  have absent : row ∉ added := fun member => foreign row member owned
  simp [absent, held row owned]

variable {removed : List ρ}

theorem Holds.deleteAll (held : Holds owner rows key entries)
    (covered : ∀ row ∈ entries, row ∈ removed) :
    Holds owner (deleteAll rows removed) key [] := by
  intro row owned
  simp only [mem_deleteAll, held row owned, List.not_mem_nil, iff_false, not_and, not_not]
  exact covered row

theorem Holds.deleteAll_other (held : Holds owner rows key entries)
    (foreign : ∀ row ∈ removed, owner row ≠ key) :
    Holds owner (SecondaryIndex.deleteAll rows removed) key entries := by
  intro row owned
  have absent : row ∉ removed := fun member => foreign row member owned
  simp [absent, held row owned]

variable {move : ρ → ρ}

omit [DecidableEq ρ] in
theorem Holds.map (held : Holds owner rows key entries) (owned : ∀ row ∈ entries, owner row = key)
    (keeps : ∀ row, owner (move row) = owner row) :
    Holds owner (rows.map move) key (entries.map move) := by
  intro row here
  simp only [List.mem_map]
  constructor
  · rintro ⟨before, member, rfl⟩
    exact ⟨before, (held before ((keeps before).symm.trans here)).mp member, rfl⟩
  · rintro ⟨before, member, rfl⟩
    exact ⟨before, (held before (owned before member)).mpr member, rfl⟩

omit [DecidableEq ρ] in
theorem Holds.map_other (held : Holds owner rows key entries)
    (keeps : ∀ row, owner (move row) = owner row)
    (fixed : ∀ row, owner row = key → move row = row) :
    Holds owner (rows.map move) key entries := by
  intro row here
  rw [← held row here, List.mem_map]
  constructor
  · rintro ⟨before, member, rfl⟩
    rwa [fixed before ((keeps before).symm.trans here)]
  · intro member
    exact ⟨row, member, fixed row here⟩

omit [DecidableEq ρ] in

omit [DecidableEq ρ] in

end

end CityPods.Foundation.SecondaryIndex
