import CityPods.Foundation.Dict

/-! # Reserves in a shared budget

Lanes that draw on one budget, each with a reserve the others may not touch. An
admission that leaves every other lane what it has not yet used of its reserve
keeps the whole of the reserves within the budget.
-/

namespace CityPods.Foundation.Reserve

variable {κ : Type} [DecidableEq κ]

/-- What the lanes have not yet used of their reserves. -/
def outstanding (reserves : Dict κ Nat) (used : κ → Nat) : Nat :=
  (reserves.map fun entry => entry.2 - used entry.1).sum

def outstandingOthers (reserves : Dict κ Nat) (used : κ → Nat) (lane : κ) : Nat :=
  (reserves.map fun entry => if entry.1 = lane then 0 else entry.2 - used entry.1).sum

/-- One more use by a lane. -/
def spend (used : κ → Nat) (lane : κ) (units : Nat) : κ → Nat :=
  fun other => if other = lane then used lane + units else used other

variable {reserves : Dict κ Nat} {lane : κ}

theorem outstandingOthers_absent (used : κ → Nat) (absent : lane ∉ reserves.keys) :
    outstandingOthers reserves used lane = outstanding reserves used := by
  unfold outstandingOthers outstanding
  congr 1
  apply List.map_congr_left
  intro entry member
  have named : entry.1 ∈ reserves.keys := List.mem_map_of_mem member
  rw [if_neg]
  rintro rfl
  exact absent named

theorem outstandingOthers_spend (reserves : Dict κ Nat) (used : κ → Nat) (lane : κ) (units : Nat) :
    outstandingOthers reserves (spend used lane units) lane =
      outstandingOthers reserves used lane := by
  unfold outstandingOthers
  congr 1
  apply List.map_congr_left
  intro entry _
  by_cases same : entry.1 = lane
  · rw [if_pos same, if_pos same]
  · rw [if_neg same, if_neg same, spend, if_neg same]

/-- A lane's own part stands beside that of the others. -/
theorem outstanding_split (nodup : reserves.keys.Nodup)
    {reserve : Nat} (registered : reserves.get? lane = some reserve) (used : κ → Nat) :
    outstanding reserves used =
      outstandingOthers reserves used lane + (reserve - used lane) := by
  induction reserves with
  | nil => cases registered
  | cons entry rest induction =>
      have parts := List.nodup_cons.mp nodup
      have whole : outstanding (entry :: rest) used =
          (entry.2 - used entry.1) + outstanding rest used := rfl
      have others : outstandingOthers (entry :: rest) used lane =
          (if entry.1 = lane then 0 else entry.2 - used entry.1) +
            outstandingOthers rest used lane := rfl
      rw [whole, others]
      by_cases same : entry.1 = lane
      · have own : entry.2 = reserve := by
          simpa [Dict.get?, same] using registered
        rw [if_pos same, outstandingOthers_absent used (same ▸ parts.1), same, own]
        omega
      · rw [Dict.get?_cons, if_neg same] at registered
        rw [if_neg same, induction parts.2 registered]
        omega

section

variable {reserves : Dict κ Nat} {used : κ → Nat} {lane : κ} {budget spent units : Nat}

/-- An admission that leaves the others their reserves keeps all of them. -/
theorem accept (nodup : reserves.keys.Nodup) (within : spent + outstanding reserves used ≤ budget)
    (fits : spent + units + outstandingOthers reserves used lane ≤ budget) :
    spent + units + outstanding reserves (spend used lane units) ≤ budget := by
  cases registered : reserves.get? lane with
  | none =>
      have absent := Dict.get?_eq_none_iff.mp registered
      rwa [← outstandingOthers_absent _ absent, outstandingOthers_spend]
  | some reserve =>
      rw [outstanding_split nodup registered] at within ⊢
      rw [outstandingOthers_spend]
      have own : spend used lane units lane = used lane + units := if_pos rfl
      rw [own]
      omega

theorem fits_of_reserve (nodup : reserves.keys.Nodup)
    (within : spent + outstanding reserves used ≤ budget) {reserve : Nat}
    (registered : reserves.get? lane = some reserve) (left : used lane + units ≤ reserve) :
    spent + units + outstandingOthers reserves used lane ≤ budget := by
  rw [outstanding_split nodup registered] at within
  omega

end

end CityPods.Foundation.Reserve
