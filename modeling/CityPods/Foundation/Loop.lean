import Mathlib.Order.WellFounded

/-! # Loops

A loop whose body goes on with a state or leaves with a result. It runs on fuel;
what it ends with does not depend on the fuel that is left.
-/

namespace CityPods.Foundation

namespace Loop

variable {σ ρ : Type} (body : σ → σ ⊕ ρ)

def run : Nat → σ → Option ρ
  | 0, _ => none
  | fuel + 1, state =>
      match body state with
      | .inl next => run fuel next
      | .inr result => some result

/-- The loop leaves with this result, given fuel enough. -/
def Ends (state : σ) (result : ρ) : Prop := ∃ fuel, run body fuel state = some result

variable {body} {state next : σ} {result : ρ}

theorem run_more {fuel : Nat} (ended : run body fuel state = some result) {more : Nat}
    (enough : fuel ≤ more) : run body more state = some result := by
  induction fuel generalizing state more with
  | zero => cases ended
  | succ fuel induction =>
      obtain ⟨rest, same⟩ := Nat.exists_eq_add_of_le' (Nat.lt_of_lt_of_le (Nat.succ_pos fuel) enough)
      rw [same] at enough ⊢
      rw [run] at ended ⊢
      cases passed : body state with
      | inl later =>
          rw [passed] at ended
          exact induction ended (Nat.le_of_succ_le_succ enough)
      | inr left =>
          rw [passed] at ended
          exact ended

theorem Ends.unique {other : ρ} (first : Ends body state result) (second : Ends body state other) :
    result = other := by
  obtain ⟨fuel, ended⟩ := first
  obtain ⟨more, endedToo⟩ := second
  have same := run_more ended (Nat.le_max_left fuel more)
  rw [run_more endedToo (Nat.le_max_right fuel more)] at same
  exact (Option.some.inj same).symm

theorem ends_of_left (left : body state = .inr result) : Ends body state result :=
  ⟨1, by rw [run, left]⟩

theorem ends_of_again (again : body state = .inl next) (later : Ends body next result) :
    Ends body state result := by
  obtain ⟨fuel, ended⟩ := later
  exact ⟨fuel + 1, by rw [run, again]; exact ended⟩

section

variable {Inv : σ → Prop}
  (keeps : ∀ state next, Inv state → body state = .inl next → Inv next)

include keeps

/-- What the body keeps holds when the loop is left. -/
theorem Ends.invariant (ended : Ends body state result) (start : Inv state) :
    ∃ last, Inv last ∧ body last = .inr result := by
  obtain ⟨fuel, ended⟩ := ended
  induction fuel generalizing state with
  | zero => cases ended
  | succ fuel induction =>
      rw [run] at ended
      cases passed : body state with
      | inl next =>
          rw [passed] at ended
          exact induction (keeps state next start passed) ended
      | inr left =>
          rw [passed] at ended
          exact ⟨state, start, passed.trans (congrArg Sum.inr (Option.some.inj ended))⟩

/-- A loop whose passes lessen a measure is left. -/
theorem exists_ends {α : Type} {less : α → α → Prop} (wellFounded : WellFounded less)
    (measure : σ → α)
    (lessens : ∀ state next, Inv state → body state = .inl next → less (measure next) (measure state))
    (start : Inv state) : ∃ result, Ends body state result := by
  induction same : measure state using wellFounded.induction generalizing state with
  | h size induction =>
      cases passed : body state with
      | inl next =>
          have smaller := lessens state next start passed
          rw [same] at smaller
          obtain ⟨result, ended⟩ :=
            induction (measure next) smaller (keeps state next start passed) rfl
          exact ⟨result, ends_of_again passed ended⟩
      | inr left => exact ⟨left, ends_of_left passed⟩

end

end Loop

end CityPods.Foundation
