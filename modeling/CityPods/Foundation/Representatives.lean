import Mathlib.Data.List.Basic

/-! # Representatives

Classes of keys, of which one key each stands for its class. The items of a list
whose keys stand behind another one are hidden, and the rest stays visible in
its order.
-/

namespace CityPods.Foundation

structure KeyClass (κ : Type) where
  members : List κ
  preferred : κ
  preferred_listed : preferred ∈ members

namespace KeyClass

variable {ι κ : Type} [DecidableEq κ]

def others (group : KeyClass κ) : List κ := group.members.filter (· ≠ group.preferred)

variable {group : KeyClass κ} {key : κ}

theorem mem_others :
    key ∈ group.others ↔ key ∈ group.members ∧ key ≠ group.preferred := by
  simp [others]

def hidden (groups : List (KeyClass κ)) : List κ := groups.flatMap others

theorem mem_hidden {groups : List (KeyClass κ)} :
    key ∈ hidden groups ↔ ∃ group ∈ groups, key ∈ group.members ∧ key ≠ group.preferred := by
  simp [hidden, mem_others]

def Agree (groups : List (KeyClass κ)) : Prop :=
  ∀ first ∈ groups, ∀ second ∈ groups, ∀ key ∈ first.members, key ∈ second.members →
    first.preferred = second.preferred

theorem preferred_not_hidden {groups : List (KeyClass κ)} (agree : Agree groups)
    (listed : group ∈ groups) : group.preferred ∉ hidden groups := by
  intro hides
  obtain ⟨other, otherListed, member, different⟩ := mem_hidden.mp hides
  exact different (agree group listed other otherListed _ group.preferred_listed member)

variable (keyOf : ι → Option κ)

/-- Whether the item's key stands behind another one. -/
def Hides (groups : List (KeyClass κ)) (item : ι) : Prop :=
  ∃ key ∈ hidden groups, keyOf item = some key

instance (groups : List (KeyClass κ)) (item : ι) : Decidable (Hides keyOf groups item) :=
  inferInstanceAs (Decidable (∃ key ∈ hidden groups, keyOf item = some key))

def visible (groups : List (KeyClass κ)) (items : List ι) : List ι :=
  items.filter fun item => ¬ Hides keyOf groups item

variable {groups : List (KeyClass κ)} (items : List ι)

variable {keyOf items} in
theorem mem_visible {item : ι} :
    item ∈ visible keyOf groups items ↔ item ∈ items ∧ ¬ Hides keyOf groups item := by
  simp [visible]

theorem preferred_visible_iff (agree : Agree groups) (listed : group ∈ groups) :
    (∃ item ∈ visible keyOf groups items, keyOf item = some group.preferred) ↔
      ∃ item ∈ items, keyOf item = some group.preferred := by
  constructor
  · rintro ⟨item, seen, named⟩
    exact ⟨item, (mem_visible.mp seen).1, named⟩
  · rintro ⟨item, present, named⟩
    refine ⟨item, mem_visible.mpr ⟨present, ?_⟩, named⟩
    rintro ⟨key, hides, other⟩
    have same : key = group.preferred := Option.some.inj (other.symm.trans named)
    exact preferred_not_hidden agree listed (same ▸ hides)

end KeyClass

end CityPods.Foundation
