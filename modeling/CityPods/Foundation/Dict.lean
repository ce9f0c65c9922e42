import Mathlib.Algebra.BigOperators.Group.List.Basic
import Mathlib.Data.List.Dedup
import Mathlib.Data.List.Sort
import Mathlib.Order.Lattice
import Mathlib.Tactic.Abel

/-! # Dictionaries

Association lists read by first occurrence: the finite maps of the modelled
language, whose order is the order of iteration.
-/

namespace CityPods.Foundation

abbrev Dict (κ ν : Type) := List (κ × ν)

namespace Dict

variable {κ ν : Type}

def keys (dict : Dict κ ν) : List κ := dict.map Prod.fst

def values (dict : Dict κ ν) : List ν := dict.map Prod.snd

section

variable [DecidableEq κ]

def get? : Dict κ ν → κ → Option ν
  | [], _ => none
  | (head, value) :: rest, key => if head = key then some value else get? rest key

/-- Assignment keeps the position of an existing key. -/
def set : Dict κ ν → κ → ν → Dict κ ν
  | [], key, value => [(key, value)]
  | (head, old) :: rest, key, value =>
      if head = key then (key, value) :: rest else (head, old) :: set rest key value

def erase (dict : Dict κ ν) (key : κ) : Dict κ ν := dict.filter fun entry => entry.1 ≠ key

/-- Assign every entry of `updates` in order. -/
def update (dict updates : Dict κ ν) : Dict κ ν :=
  updates.foldl (fun current entry => current.set entry.1 entry.2) dict

def contains (dict : Dict κ ν) (key : κ) : Bool := (dict.get? key).isSome

@[simp] theorem get?_nil (key : κ) : get? ([] : Dict κ ν) key = none := rfl

theorem get?_cons (head : κ) (value : ν) (rest : Dict κ ν) (key : κ) :
    get? ((head, value) :: rest) key = if head = key then some value else rest.get? key := rfl

@[simp] theorem get?_set_same (dict : Dict κ ν) (key : κ) (value : ν) :
    (dict.set key value).get? key = some value := by
  induction dict with
  | nil => simp [set, get?]
  | cons entry rest induction =>
      obtain ⟨head, old⟩ := entry
      by_cases same : head = key
      · simp [set, get?, same]
      · simp [set, get?, same, induction]

variable {other : κ}

theorem get?_set_other (dict : Dict κ ν) {key : κ} (value : ν) (different : other ≠ key) :
    (dict.set key value).get? other = dict.get? other := by
  induction dict with
  | nil => simp [set, get?, different.symm]
  | cons entry rest induction =>
      obtain ⟨head, old⟩ := entry
      by_cases same : head = key
      · subst same
        simp [set, get?, different.symm]
      · simp [set, get?, same, induction]

theorem get?_set (dict : Dict κ ν) (key other : κ) (value : ν) :
    (dict.set key value).get? other = if key = other then some value else dict.get? other := by
  split
  · next same => rw [same, get?_set_same]
  · next different => exact get?_set_other dict value fun equal => different equal.symm

@[simp] theorem get?_erase_same (dict : Dict κ ν) (key : κ) : (dict.erase key).get? key = none := by
  induction dict with
  | nil => rfl
  | cons entry rest induction =>
      obtain ⟨head, old⟩ := entry
      by_cases same : head = key
      · simpa [erase, same] using induction
      · simpa [erase, get?, same] using induction

theorem get?_erase_other (dict : Dict κ ν) {key : κ} (different : other ≠ key) :
    (dict.erase key).get? other = dict.get? other := by
  induction dict with
  | nil => rfl
  | cons entry rest induction =>
      obtain ⟨head, old⟩ := entry
      by_cases same : head = key
      · subst same
        simpa [erase, get?, different.symm] using induction
      · by_cases found : head = other
        · subst found
          simp [erase, get?, same]
        · simpa [erase, get?, same, found] using induction

theorem get?_erase (dict : Dict κ ν) (key other : κ) :
    (dict.erase key).get? other = if key = other then none else dict.get? other := by
  split
  · next same => rw [same, get?_erase_same]
  · next different => exact get?_erase_other dict fun equal => different equal.symm

variable {dict : Dict κ ν} {key : κ}

theorem erase_of_none (absent : dict.get? key = none) :
    dict.erase key = dict := by
  induction dict with
  | nil => rfl
  | cons entry rest induction =>
      obtain ⟨head, old⟩ := entry
      rw [get?_cons] at absent
      split at absent
      · cases absent
      · next different =>
        have kept := induction absent
        unfold erase at kept ⊢
        rw [List.filter_cons_of_pos (by simpa using different), kept]

variable {entry : κ × ν}

theorem mem_foldl_erase {keys : List κ} :
    entry ∈ keys.foldl erase dict ↔ entry ∈ dict ∧ entry.1 ∉ keys := by
  induction keys generalizing dict with
  | nil => simp
  | cons key rest induction =>
      rw [List.foldl_cons, induction, erase, List.mem_filter, List.mem_cons, not_or,
        decide_eq_true_iff, and_assoc]

theorem length_set_le (dict : Dict κ ν) (key : κ) (value : ν) :
    (dict.set key value).length ≤ dict.length + 1 := by
  induction dict with
  | nil => exact Nat.le_refl _
  | cons entry rest induction =>
      obtain ⟨head, old⟩ := entry
      by_cases same : head = key
      · simp [set, same]
      · simpa [set, same] using induction

theorem length_erase_le (dict : Dict κ ν) (key : κ) : (dict.erase key).length ≤ dict.length :=
  List.length_filter_le _ _

variable {value : ν}

theorem get?_eq_some_mem (found : dict.get? key = some value) : (key, value) ∈ dict := by
  induction dict with
  | nil => cases found
  | cons entry rest induction =>
      obtain ⟨head, old⟩ := entry
      by_cases same : head = key
      · subst same
        simp only [get?, if_true, Option.some.injEq] at found
        subst found
        exact List.mem_cons_self
      · simp only [get?, same, if_false] at found
        exact List.mem_cons_of_mem _ (induction found)

theorem mem_set (member : entry ∈ dict.set key value) : entry = (key, value) ∨ entry ∈ dict := by
  induction dict with
  | nil => exact .inl (List.mem_singleton.mp member)
  | cons head rest induction =>
      obtain ⟨first, old⟩ := head
      by_cases same : first = key
      · rw [set, if_pos same] at member
        rcases List.mem_cons.mp member with new | later
        · exact .inl new
        · exact .inr (List.mem_cons_of_mem _ later)
      · rw [set, if_neg same] at member
        rcases List.mem_cons.mp member with first | later
        · exact .inr (first ▸ List.mem_cons_self)
        · exact (induction later).imp_right (List.mem_cons_of_mem _)

variable {updates : Dict κ ν}

theorem mem_update (member : entry ∈ dict.update updates) : entry ∈ dict ∨ entry ∈ updates := by
  induction updates generalizing dict with
  | nil => exact .inl member
  | cons head rest induction =>
      rcases induction member with assigned | later
      · rcases mem_set assigned with rfl | before
        · exact .inr List.mem_cons_self
        · exact .inl before
      · exact .inr (List.mem_cons_of_mem _ later)

theorem get?_isSome_iff_mem_keys :
    (dict.get? key).isSome = true ↔ key ∈ dict.keys := by
  induction dict with
  | nil => simp [keys]
  | cons entry rest induction =>
      obtain ⟨head, old⟩ := entry
      by_cases same : head = key
      · simp [get?, keys, same]
      · have flipped : key ≠ head := fun equal => same equal.symm
        simpa [get?, keys, same, flipped] using induction

theorem get?_eq_none_iff : dict.get? key = none ↔ key ∉ dict.keys := by
  rw [← get?_isSome_iff_mem_keys, Bool.not_eq_true, Option.isSome_eq_false_iff, Option.isNone_iff_eq_none]

theorem get?_of_mem (nodup : dict.keys.Nodup)
    (member : (key, value) ∈ dict) : dict.get? key = some value := by
  induction dict with
  | nil => cases member
  | cons entry rest induction =>
      obtain ⟨head, old⟩ := entry
      have parts := List.nodup_cons.mp nodup
      rcases List.mem_cons.mp member with same | later
      · cases same
        simp [get?]
      · have named : key ∈ keys rest := List.mem_map_of_mem (f := Prod.fst) later
        have different : head ≠ key := fun equal => parts.1 (equal ▸ named)
        simpa [get?, different] using induction parts.2 later

theorem get?_update (nodup : updates.keys.Nodup) (dict : Dict κ ν) (key : κ) :
    (dict.update updates).get? key = (updates.get? key).or (dict.get? key) := by
  induction updates generalizing dict with
  | nil => rfl
  | cons entry rest induction =>
      obtain ⟨head, value⟩ := entry
      have parts := List.nodup_cons.mp nodup
      have step : (dict.update ((head, value) :: rest)) = (dict.set head value).update rest := rfl
      rw [step, induction parts.2, get?_set, get?_cons]
      by_cases same : head = key
      · subst same
        simp [get?_eq_none_iff.mpr parts.1]
      · simp [same]

/-- Items that are put one after another into the value of their key. -/
theorem get?_foldl {ι : Type} {step : Dict κ ν → ι → Dict κ ν} {keyOf : ι → κ}
    {choose : Option ν → ι → Option ν} (puts : ∀ dict item key, (step dict item).get? key =
      if keyOf item = key then choose (dict.get? key) item else dict.get? key)
    (items : List ι) (dict : Dict κ ν) (key : κ) :
    (items.foldl step dict).get? key =
      (items.filter fun item => keyOf item = key).foldl choose (dict.get? key) := by
  induction items generalizing dict with
  | nil => rfl
  | cons item rest induction =>
      rw [List.foldl_cons, induction, puts]
      by_cases same : keyOf item = key
      · rw [if_pos same, List.filter_cons_of_pos (by simpa using same), List.foldl_cons]
      · rw [if_neg same, List.filter_cons_of_neg (by simpa using same)]

variable {ι : Type}

theorem foldl_last {β : Type} (value : ι → β) (items : List ι) (start : Option β) :
    items.foldl (fun _ item => some (value item)) start = (items.getLast?.map value).or start := by
  induction items generalizing start with
  | nil => rfl
  | cons item rest induction =>
      rw [List.foldl_cons, induction, List.getLast?_cons]
      cases rest.getLast? <;> rfl

theorem get?_foldl_set (keyOf : ι → κ) (value : ι → ν) (items : List ι)
    (dict : Dict κ ν) (key : κ) :
    (items.foldl (fun dict item => dict.set (keyOf item) (value item)) dict).get? key =
      (((items.filter fun item => keyOf item = key).getLast?).map value).or (dict.get? key) := by
  rw [← foldl_last]
  exact @get?_foldl κ ν _ ι _ keyOf (fun _ item => some (value item))
    (fun dict item key => get?_set dict (keyOf item) key (value item)) items dict key

theorem get?_eq_find? (dict : Dict κ ν) (key : κ) :
    dict.get? key = (dict.find? fun entry => entry.1 = key).map Prod.snd := by
  induction dict with
  | nil => rfl
  | cons entry rest induction =>
      obtain ⟨head, value⟩ := entry
      by_cases same : head = key
      · simp [get?, same]
      · simpa [get?, same] using induction

def eraseAll (dict : Dict κ ν) (removed : List κ) : Dict κ ν := removed.foldl erase dict

theorem get?_eraseAll (dict : Dict κ ν) (removed : List κ) (key : κ) :
    (dict.eraseAll removed).get? key = if key ∈ removed then none else dict.get? key := by
  induction removed generalizing dict with
  | nil => simp [eraseAll]
  | cons head rest induction =>
      have step : dict.eraseAll (head :: rest) = (dict.erase head).eraseAll rest := rfl
      rw [step, induction, get?_erase]
      by_cases same : head = key
      · simp [same]
      · simp [same, Ne.symm same]

end

/-! ## Values -/

def mapValues (transform : ν → μ) (dict : Dict κ ν) : Dict κ μ :=
  dict.map fun entry => (entry.1, transform entry.2)

theorem get?_mapValues [DecidableEq κ] (transform : ν → μ) (dict : Dict κ ν) (key : κ) :
    (dict.mapValues transform).get? key = (dict.get? key).map transform := by
  induction dict with
  | nil => rfl
  | cons entry rest induction =>
      obtain ⟨head, value⟩ := entry
      by_cases same : head = key
      · simp [mapValues, get?, same]
      · simpa [mapValues, get?, same] using induction

/-! ## Totals -/

def total [AddCommMonoid μ] (weight : ν → μ) (dict : Dict κ ν) : μ :=
  (dict.map fun entry => weight entry.2).sum

section

variable [AddCommMonoid μ] (weight : ν → μ)

@[simp] theorem total_nil : total weight ([] : Dict κ ν) = 0 := rfl

@[simp] theorem total_cons (entry : κ × ν) (rest : Dict κ ν) :
    total weight (entry :: rest) = weight entry.2 + total weight rest := rfl

variable {dict : Dict κ ν}

theorem total_congr {weight other : ν → μ} (same : ∀ entry ∈ dict, weight entry.2 = other entry.2) :
    total weight dict = total other dict := by
  induction dict with
  | nil => rfl
  | cons entry rest induction =>
      rw [total_cons, total_cons, same entry List.mem_cons_self,
        induction fun entry member => same entry (List.mem_cons_of_mem _ member)]

def totalAt [DecidableEq ω] (window : ν → ω) (amount : ν → μ) (stored : ω) (dict : Dict κ ν) : μ :=
  total (fun value => if window value = stored then amount value else 0) dict

/-- Nothing is counted in a window that no value has. -/
theorem totalAt_eq_zero [DecidableEq ω] (window : ν → ω) (amount : ν → μ) (stored : ω)
    (fresh : ∀ entry ∈ dict, window entry.2 = stored → amount entry.2 = 0) :
    totalAt window amount stored dict = 0 := by
  have zero : totalAt window amount stored dict = total (fun _ => 0) dict := by
    apply total_congr
    intro entry member
    split
    · next inside => exact fresh entry member inside
    · rfl
  rw [zero]
  simp [total]

variable [DecidableEq κ] {key : κ}

theorem total_set_new (absent : dict.get? key = none) (value : ν) :
    total weight (dict.set key value) = total weight dict + weight value := by
  induction dict with
  | nil => simp [set]
  | cons entry rest induction =>
      obtain ⟨head, old⟩ := entry
      have different : head ≠ key := fun same => by simp [get?, same] at absent
      rw [get?_cons, if_neg different] at absent
      simp only [set, different, if_false, total_cons, induction absent, add_assoc]

variable {old : ν}

theorem total_set (found : dict.get? key = some old) (value : ν) :
    total weight (dict.set key value) + weight old = total weight dict + weight value := by
  induction dict with
  | nil => cases found
  | cons entry rest induction =>
      obtain ⟨head, first⟩ := entry
      by_cases same : head = key
      · rw [get?_cons, if_pos same, Option.some.injEq] at found
        simp only [set, same, if_true, total_cons, found]
        abel
      · rw [get?_cons, if_neg same] at found
        simp only [set, same, if_false, total_cons, add_assoc, induction found]

theorem total_erase (nodup : dict.keys.Nodup) (found : dict.get? key = some old) :
    total weight (dict.erase key) + weight old = total weight dict := by
  induction dict with
  | nil => cases found
  | cons entry rest induction =>
      obtain ⟨head, first⟩ := entry
      have parts := List.nodup_cons.mp nodup
      by_cases same : head = key
      · rw [get?_cons, if_pos same, Option.some.injEq] at found
        have kept : erase rest key = rest := by
          refine List.filter_eq_self.mpr fun other member => ?_
          have named : other.1 ∈ keys rest := List.mem_map_of_mem member
          exact decide_eq_true fun equal => parts.1 (show head ∈ keys rest by
            rw [same, ← equal]
            exact named)
        have dropped : erase ((head, first) :: rest) key = erase rest key := by
          simp [erase, same]
        rw [dropped, kept, total_cons, found]
        abel
      · rw [get?_cons, if_neg same] at found
        have shifted : erase ((head, first) :: rest) key = (head, first) :: erase rest key := by
          simp [erase, same]
        rw [shifted, total_cons, total_cons, add_assoc, induction parts.2 found]

section

variable [DecidableEq ω] (window : ν → ω) (amount : ν → μ) (stored : ω)

theorem totalAt_set_new (absent : dict.get? key = none) (value : ν) :
    totalAt window amount stored (dict.set key value) = totalAt window amount stored dict +
      if window value = stored then amount value else 0 :=
  total_set_new _ absent value

theorem totalAt_set {old : ν} (found : dict.get? key = some old) (value : ν) :
    totalAt window amount stored (dict.set key value) +
        (if window old = stored then amount old else 0) =
      totalAt window amount stored dict + if window value = stored then amount value else 0 :=
  total_set _ found value

end

theorem keys_set_of_get? (found : dict.get? key = some old)
    (value : ν) : (dict.set key value).keys = dict.keys := by
  induction dict with
  | nil => cases found
  | cons entry rest induction =>
      obtain ⟨head, first⟩ := entry
      by_cases same : head = key
      · simp [set, keys, same]
      · rw [get?_cons, if_neg same] at found
        have later := induction found
        simp only [keys] at later ⊢
        simp [set, same, later]

theorem keys_set_new (absent : dict.get? key = none) (value : ν) :
    (dict.set key value).keys = dict.keys ++ [key] := by
  induction dict with
  | nil => rfl
  | cons entry rest induction =>
      obtain ⟨head, first⟩ := entry
      have different : head ≠ key := fun same => by simp [get?, same] at absent
      rw [get?_cons, if_neg different] at absent
      have later := induction absent
      simp only [keys] at later ⊢
      simp [set, different, later]

theorem set_new (absent : dict.get? key = none) (value : ν) :
    dict.set key value = dict ++ [(key, value)] := by
  induction dict with
  | nil => rfl
  | cons entry rest induction =>
      obtain ⟨head, first⟩ := entry
      have different : head ≠ key := fun same => by simp [get?, same] at absent
      rw [get?_cons, if_neg different] at absent
      rw [set, if_neg different, induction absent]
      rfl

theorem nodup_keys_set (nodup : dict.keys.Nodup) (key : κ) (value : ν) :
    (dict.set key value).keys.Nodup := by
  cases found : dict.get? key with
  | some old => rwa [keys_set_of_get? found]
  | none =>
      rw [keys_set_new found]
      exact List.nodup_append.mpr ⟨nodup, List.nodup_singleton key, by
        intro other member same
        simp only [List.mem_singleton]
        rintro rfl rfl
        exact get?_eq_none_iff.mp found member⟩

theorem nodup_keys_update (nodup : dict.keys.Nodup) (updates : Dict κ ν) :
    (dict.update updates).keys.Nodup := by
  induction updates generalizing dict with
  | nil => exact nodup
  | cons entry rest induction => exact induction (nodup_keys_set nodup entry.1 entry.2)

variable {updates : Dict κ ν}

/-- New keys follow the old ones. -/
theorem keys_update (nodup : updates.keys.Nodup) (dict : Dict κ ν) :
    (dict.update updates).keys = dict.keys ++ updates.keys.filter (· ∉ dict.keys) := by
  induction updates generalizing dict with
  | nil => exact (List.append_nil _).symm
  | cons entry rest induction =>
      obtain ⟨key, value⟩ := entry
      obtain ⟨fresh, later⟩ := List.nodup_cons.mp nodup
      have step : dict.update ((key, value) :: rest) = (dict.set key value).update rest := rfl
      have listed : keys ((key, value) :: rest) = key :: keys rest := rfl
      rw [step, induction later, listed]
      cases found : dict.get? key with
      | some old =>
          have known : key ∈ dict.keys := get?_isSome_iff_mem_keys.mp (by rw [found]; rfl)
          rw [keys_set_of_get? found, List.filter_cons_of_neg (by simpa using known)]
      | none =>
          have new : key ∉ dict.keys := get?_eq_none_iff.mp found
          rw [keys_set_new found, List.filter_cons_of_pos (by simpa using new), List.append_assoc]
          refine congrArg (dict.keys ++ key :: ·) (List.filter_congr fun other member => ?_)
          have different : other ≠ key := fun same => fresh (same ▸ member)
          simp [different]

theorem update_new (nodup : (dict ++ updates).keys.Nodup) :
    dict.update updates = dict ++ updates := by
  induction updates generalizing dict with
  | nil => exact (List.append_nil _).symm
  | cons entry rest induction =>
      obtain ⟨key, value⟩ := entry
      have joined : (dict ++ [(key, value)] ++ rest) = dict ++ (key, value) :: rest := by simp
      have absent : dict.get? key = none := by
        refine get?_eq_none_iff.mpr fun member => ?_
        rw [keys, List.map_append] at nodup
        exact (List.nodup_append.mp nodup).2.2 key member key List.mem_cons_self rfl
      have step : dict.update ((key, value) :: rest) = (dict.set key value).update rest := rfl
      rw [step, set_new absent, induction, joined]
      rw [joined]
      exact nodup

omit [AddCommMonoid μ] in
theorem nodup_keys_erase (nodup : dict.keys.Nodup) (key : κ) :
    (dict.erase key).keys.Nodup :=
  nodup.sublist (List.filter_sublist.map _)

end

/-! ## Groups -/

section

variable [DecidableEq κ] (key : ν → κ)

def addToGroup (groups : Dict κ (List ν)) (value : ν) : Dict κ (List ν) :=
  groups.set (key value) ((groups.get? (key value)).getD [] ++ [value])

/-- Collect values by key, the keys in the order in which they first occur. -/
def groupOn (values : List ν) : Dict κ (List ν) := values.foldl (addToGroup key) []

def grouped (groups : Dict κ (List ν)) : List ν := groups.flatMap Prod.snd

theorem grouped_addToGroup_perm (groups : Dict κ (List ν)) (value : ν) :
    (grouped (addToGroup key groups value)).Perm (grouped groups ++ [value]) := by
  unfold addToGroup
  induction groups with
  | nil => simp [grouped, set]
  | cons entry rest induction =>
      obtain ⟨head, members⟩ := entry
      by_cases same : head = key value
      · simp only [set, get?_cons, same, if_true, Option.getD_some, grouped, List.flatMap_cons,
          List.append_assoc]
        exact List.Perm.append_left members List.perm_append_comm
      · simp only [set, get?_cons, same, if_false, grouped, List.flatMap_cons, List.append_assoc]
        exact List.Perm.append_left members induction

theorem grouped_groupOn_perm (values : List ν) : (grouped (groupOn key values)).Perm values := by
  suffices folded : ∀ groups : Dict κ (List ν),
      (grouped (values.foldl (addToGroup key) groups)).Perm (grouped groups ++ values) from
    folded []
  induction values with
  | nil => exact fun groups => by simp
  | cons value rest induction =>
      intro groups
      refine (induction (addToGroup key groups value)).trans ?_
      refine ((grouped_addToGroup_perm key groups value).append_right rest).trans ?_
      simp

theorem nodup_keys_groupOn (values : List ν) : (groupOn key values).keys.Nodup := by
  suffices folded : ∀ groups : Dict κ (List ν), groups.keys.Nodup →
      (values.foldl (addToGroup key) groups).keys.Nodup from folded [] List.nodup_nil
  induction values with
  | nil => exact fun _ nodup => nodup
  | cons value rest induction => exact fun groups nodup => induction _ (nodup_keys_set nodup _ _)

theorem getD_groupOn (values : List ν) (group : κ) :
    ((groupOn key values).get? group).getD [] = values.filter fun value => key value = group := by
  have folded : (groupOn key values).get? group =
      (values.filter fun value => key value = group).foldl
        (fun found value => some (found.getD [] ++ [value])) none := by
    refine get?_foldl (fun groups value other => ?_) values [] group
    rw [addToGroup, get?_set]
    split
    · next same => rw [same]
    · rfl
  rw [folded]
  suffices all : ∀ (members : List ν) (found : Option (List ν)),
      (members.foldl (fun found value => some (found.getD [] ++ [value])) found).getD [] =
        found.getD [] ++ members from all _ none
  intro members
  induction members with
  | nil => exact fun found => (List.append_nil _).symm
  | cons value rest induction =>
      intro found
      rw [List.foldl_cons, induction, Option.getD_some, List.append_assoc]
      rfl

theorem mem_groupOn {values : List ν} {group : κ × List ν} (member : group ∈ groupOn key values) :
    group.2 ≠ [] ∧ ∀ value ∈ group.2, key value = group.1 := by
  suffices folded : ∀ groups : Dict κ (List ν),
      (∀ group ∈ groups, group.2 ≠ [] ∧ ∀ value ∈ group.2, key value = group.1) →
      ∀ group ∈ values.foldl (addToGroup key) groups,
        group.2 ≠ [] ∧ ∀ value ∈ group.2, key value = group.1 from
    folded [] (fun _ absent => absurd absent List.not_mem_nil) group member
  clear member
  induction values with
  | nil => exact fun _ grouped => grouped
  | cons value rest induction =>
      intro groups keyed
      apply induction
      intro other added
      rcases mem_set added with rfl | before
      · refine ⟨by simp, fun member inside => ?_⟩
        rcases List.mem_append.mp inside with old | new
        · cases found : groups.get? (key value) with
          | none => simp [found] at old
          | some members =>
              rw [found, Option.getD_some] at old
              exact (keyed _ (get?_eq_some_mem found)).2 member old
        · rw [List.mem_singleton.mp new]
      · exact keyed other before

end

/-! ## Key order -/

section

variable [LinearOrder κ]

/-- Insert before the first key that is not smaller. -/
def insertSorted (key : κ) (value : ν) : Dict κ ν → Dict κ ν
  | [] => [(key, value)]
  | (head, old) :: rest =>
      if head < key then (head, old) :: insertSorted key value rest
      else (key, value) :: (head, old) :: rest

/-- The entries in key order, as a serializer with sorted keys writes them. -/
def sortKeys (dict : Dict κ ν) : Dict κ ν :=
  dict.foldr (fun entry sorted => insertSorted entry.1 entry.2 sorted) []

theorem get?_insertSorted (dict : Dict κ ν) (key other : κ) (value : ν) :
    (insertSorted key value dict).get? other =
      if key = other then some value else dict.get? other := by
  induction dict with
  | nil => rfl
  | cons entry rest induction =>
      obtain ⟨head, old⟩ := entry
      by_cases smaller : head < key
      · by_cases same : head = other
        · subst same
          simp [insertSorted, get?, smaller, ne_of_gt smaller]
        · simp [insertSorted, get?, smaller, same, induction]
      · simp [insertSorted, get?, smaller]

@[simp] theorem get?_sortKeys (dict : Dict κ ν) (key : κ) :
    dict.sortKeys.get? key = dict.get? key := by
  induction dict with
  | nil => rfl
  | cons entry rest induction =>
      obtain ⟨head, old⟩ := entry
      show (insertSorted head old (sortKeys rest)).get? key = _
      rw [get?_insertSorted, induction, get?_cons]

theorem insertSorted_length (dict : Dict κ ν) (key : κ) (value : ν) :
    (insertSorted key value dict).length = dict.length + 1 := by
  induction dict with
  | nil => rfl
  | cons entry rest induction =>
      obtain ⟨head, old⟩ := entry
      by_cases smaller : head < key
      · simp [insertSorted, smaller, induction]
      · simp [insertSorted, smaller]

@[simp] theorem sortKeys_length (dict : Dict κ ν) : dict.sortKeys.length = dict.length := by
  induction dict with
  | nil => rfl
  | cons entry rest induction =>
      show (insertSorted entry.1 entry.2 (sortKeys rest)).length = _
      rw [insertSorted_length, induction, List.length_cons]

theorem insertSorted_perm (dict : Dict κ ν) (key : κ) (value : ν) :
    (insertSorted key value dict).Perm ((key, value) :: dict) := by
  induction dict with
  | nil => exact .refl _
  | cons entry rest induction =>
      obtain ⟨head, old⟩ := entry
      by_cases smaller : head < key
      · simp only [insertSorted, smaller, if_true]
        exact (induction.cons _).trans (.swap ..)
      · simp [insertSorted, smaller]

theorem sortKeys_perm (dict : Dict κ ν) : dict.sortKeys.Perm dict := by
  induction dict with
  | nil => exact .refl _
  | cons entry rest induction => exact (insertSorted_perm _ _ _).trans (induction.cons entry)

/-- The distinct elements in order, as `sorted(set(…))` yields them. -/
def sortedSet (elements : List κ) : List κ := elements.dedup.insertionSort (· ≤ ·)

@[simp] theorem mem_sortedSet {elements : List κ} {element : κ} :
    element ∈ sortedSet elements ↔ element ∈ elements := by
  simp [sortedSet]

theorem nodup_sortedSet (elements : List κ) : (sortedSet elements).Nodup :=
  ((List.perm_insertionSort (· ≤ ·) elements.dedup).nodup_iff).mpr elements.nodup_dedup

theorem pairwise_sortedSet (elements : List κ) : (sortedSet elements).Pairwise (· < ·) := by
  have sorted := List.pairwise_insertionSort (· ≤ ·) elements.dedup
  exact sorted.imp₂ (fun _ _ => lt_of_le_of_ne) (nodup_sortedSet elements)

end

end Dict

/-! ## Lookups -/

/-- What a partial lookup finds for keys, by keys, are some of these keys. -/
theorem sublist_map_filterMap {α β κ : Type} {find : α → Option β} {found : β → κ} {sought : α → κ}
    {items : List α}
    (same : ∀ item ∈ items, ∀ result, find item = some result → found result = sought item) :
    ((items.filterMap find).map found).Sublist (items.map sought) := by
  induction items with
  | nil => exact List.Sublist.refl []
  | cons item rest induction =>
      have later := induction fun other member => same other (List.mem_cons_of_mem _ member)
      cases read : find item with
      | none =>
          rw [List.filterMap_cons_none read]
          exact later.cons _
      | some result =>
          have here := same item List.mem_cons_self result read
          rw [List.filterMap_cons_some read, List.map_cons, here]
          exact later.cons_cons _

end CityPods.Foundation
