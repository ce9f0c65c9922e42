import Mathlib.Data.List.Basic
import Mathlib.Tactic.TypeStar

/-! # Checked computations

Code that either returns or throws, as a chain of steps of which the first one
to throw decides.
-/

namespace CityPods.Foundation

variable {ε α β : Type}

/-- Throw unless the condition holds. -/
def require (condition : Prop) [Decidable condition] (error : ε) : Except ε Unit :=
  if condition then .ok () else .error error

theorem bind_eq_ok {first : Except ε α} {next : α → Except ε β} {result : β} :
    first >>= next = .ok result ↔ ∃ value, first = .ok value ∧ next value = .ok result := by
  cases first with
  | error thrown =>
      exact ⟨fun failed => (by cases failed), fun ⟨_, failed, _⟩ => (by cases failed)⟩
  | ok value =>
      constructor
      · intro returned
        exact ⟨value, rfl, returned⟩
      · rintro ⟨_, ⟨⟩, returned⟩
        exact returned

theorem ok_bind (value : α) (next : α → Except ε β) :
    (Except.ok value : Except ε α) >>= next = next value := rfl

theorem mem_of_mapM {transform : α → Except ε β} {elements : List α} {results : List β}
    (mapped : elements.mapM transform = .ok results) {result : β} (member : result ∈ results) :
    ∃ element ∈ elements, transform element = .ok result := by
  induction elements generalizing results with
  | nil =>
      cases mapped
      cases member
  | cons head rest induction =>
      rw [List.mapM_cons] at mapped
      obtain ⟨value, first, mapped⟩ := bind_eq_ok.mp mapped
      obtain ⟨values, later, joined⟩ := bind_eq_ok.mp mapped
      cases joined
      rcases List.mem_cons.mp member with rfl | inside
      · exact ⟨head, List.mem_cons_self, first⟩
      · obtain ⟨element, present, equal⟩ := induction later inside
        exact ⟨element, List.mem_cons_of_mem head present, equal⟩

def collect (step : α → Except ε (List β)) : List α → Except ε (List β)
  | [] => .ok []
  | item :: rest => do
      let first ← step item
      let others ← collect step rest
      return first ++ others

theorem collect_eq_nil {step : α → Except ε (List β)} {items : List α} :
    collect step items = .ok [] ↔ ∀ item ∈ items, step item = .ok [] := by
  induction items with
  | nil => exact ⟨fun _ item none => absurd none List.not_mem_nil, fun _ => rfl⟩
  | cons item rest induction =>
      rw [List.forall_mem_cons, ← induction]
      constructor
      · intro returned
        obtain ⟨first, stepped, returned⟩ := bind_eq_ok.mp returned
        obtain ⟨others, remaining, joined⟩ := bind_eq_ok.mp returned
        obtain ⟨rfl, rfl⟩ := List.append_eq_nil_iff.mp (Except.ok.inj joined)
        exact ⟨stepped, remaining⟩
      · rintro ⟨stepped, remaining⟩
        rw [collect, stepped, ok_bind, remaining]
        rfl

end CityPods.Foundation
