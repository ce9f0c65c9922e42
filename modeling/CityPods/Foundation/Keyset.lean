import Mathlib.Data.List.Sort
import Mathlib.Order.Defs.LinearOrder

/-! # Keyset pages

Rows in the order of a key, read a page at a time: what a page holds, what lies
behind its last row, and how pages of several scans merge into the page of all.
-/

namespace CityPods.Foundation.Keyset

variable {α κ : Type*}

section

variable {le other : α → α → Bool}

/-- The start of a merge comes from the starts of the two sides. -/
theorem take_merge_take (count : Nat) {first second : Nat} (left right : List α)
    (reachesLeft : count ≤ first) (reachesRight : count ≤ second) :
    ((left.take first).merge (right.take second) le).take count =
      (left.merge right le).take count := by
  induction count generalizing left right first second with
  | zero => simp
  | succ count induction =>
      obtain ⟨first, rfl⟩ := Nat.exists_eq_succ_of_ne_zero (by omega : first ≠ 0)
      obtain ⟨second, rfl⟩ := Nat.exists_eq_succ_of_ne_zero (by omega : second ≠ 0)
      cases left with
      | nil => simp [List.take_take, Nat.min_eq_left reachesRight]
      | cons head left =>
          cases right with
          | nil =>
              simp only [List.take_nil, List.merge_right]
              rw [List.take_take, Nat.min_eq_left reachesLeft]
          | cons top right =>
              simp only [List.take_succ_cons, List.cons_merge_cons]
              by_cases before : le head top = true
              · simp only [before, if_true, List.take_succ_cons, List.cons.injEq, true_and]
                have behind := @induction first (second + 1) left (top :: right) (by omega)
                  (by omega)
                rwa [List.take_succ_cons] at behind
              · simp only [before, if_false, Bool.false_eq_true, List.take_succ_cons,
                  List.cons.injEq, true_and]
                have behind := @induction (first + 1) second (head :: left) right (by omega)
                  (by omega)
                rwa [List.take_succ_cons] at behind

/-- A merge only compares rows of one side with rows of the other. -/
theorem merge_congr {left right : List α}
    (agree : ∀ row ∈ left, ∀ against ∈ right, le row against = other row against) :
    left.merge right le = left.merge right other := by
  induction left generalizing right with
  | nil => simp
  | cons head left induction =>
      induction right with
      | nil => simp
      | cons top right inner =>
          rw [List.cons_merge_cons, List.cons_merge_cons, agree head (by simp) top (by simp)]
          split
          · rw [induction fun row member against present =>
              agree row (by simp [member]) against present]
          · rw [inner fun row member against present =>
              agree row member against (by simp [present])]

end

section

variable [LinearOrder κ] (key : α → κ)

def notAfter (left right : α) : Bool := key left ≤ key right

/-- Every row comes before the next by its key. -/
def Ordered (rows : List α) : Prop := rows.Pairwise fun earlier later => key earlier < key later

def Distinct (rows : List α) : Prop := rows.Pairwise fun earlier later => key earlier ≠ key later

variable {key} {rows others : List α}

theorem notAfter_trans (first second third : α) (left : notAfter key first second = true)
    (right : notAfter key second third = true) : notAfter key first third = true :=
  decide_eq_true ((of_decide_eq_true left).trans (of_decide_eq_true right))

theorem notAfter_total (left right : α) :
    (notAfter key left right || notAfter key right left) = true := by
  rcases le_total (key left) (key right) with before | after
  · simp [notAfter, before]
  · simp [notAfter, after]

theorem Distinct.ordered (distinct : Distinct key rows)
    (sorted : rows.Pairwise fun earlier later => notAfter key earlier later = true) :
    Ordered key rows :=
  (sorted.and distinct).imp fun both => lt_of_le_of_ne (of_decide_eq_true both.1) both.2

omit [LinearOrder κ] in
theorem Distinct.perm (distinct : Distinct key rows) (same : others.Perm rows) :
    Distinct key others :=
  (List.Perm.pairwise_iff (fun different => different.symm) same).mpr distinct

theorem Distinct.ordered_mergeSort (distinct : Distinct key rows) :
    Ordered key (rows.mergeSort (notAfter key)) :=
  (distinct.perm (List.mergeSort_perm rows _)).ordered
    (List.pairwise_mergeSort notAfter_trans notAfter_total rows)

theorem Ordered.distinct (ordered : Ordered key rows) : Distinct key rows :=
  ordered.imp fun before => before.ne

omit [LinearOrder κ] in
theorem Distinct.append (left : Distinct key rows) (right : Distinct key others)
    (apart : ∀ row ∈ rows, ∀ other ∈ others, key row ≠ key other) :
    Distinct key (rows ++ others) :=
  List.pairwise_append.mpr ⟨left, right, apart⟩

theorem Ordered.eq_of_mem_iff (ordered : Ordered key rows) (also : Ordered key others)
    (same : ∀ row, row ∈ rows ↔ row ∈ others) : rows = others := by
  have nodup {rows : List α} (ordered : Ordered key rows) : rows.Nodup :=
    ordered.imp fun before equal => (equal ▸ before).false
  have perm := (List.perm_ext_iff_of_nodup (nodup ordered) (nodup also)).mpr same
  refine perm.eq_of_pairwise (fun left right _ _ before after => ?_) ordered also
  exact absurd before after.asymm

theorem Ordered.merge (left : Ordered key rows) (right : Ordered key others)
    (apart : ∀ row ∈ rows, ∀ other ∈ others, key row ≠ key other) :
    Ordered key (rows.merge others (notAfter key)) := by
  have together : Distinct key (rows.merge others (notAfter key)) :=
    (left.distinct.append right.distinct apart).perm (List.merge_perm_append _)
  refine together.ordered (List.pairwise_merge notAfter_trans notAfter_total _ _ ?_ ?_)
  · exact left.imp fun before => decide_eq_true before.le
  · exact right.imp fun before => decide_eq_true before.le

theorem Ordered.lt_of_notMem_take (ordered : Ordered key rows) {row page : α} {limit : Nat}
    (member : row ∈ rows) (beyond : row ∉ rows.take limit) (onPage : page ∈ rows.take limit) :
    key page < key row := by
  rw [← List.take_append_drop limit rows] at ordered member
  have behind := (List.mem_append.mp member).resolve_left beyond
  exact (List.pairwise_append.mp ordered).2.2 page onPage row behind

theorem Ordered.take (ordered : Ordered key rows) (limit : Nat) :
    Ordered key (rows.take limit) :=
  List.Pairwise.sublist (List.take_sublist _ _) ordered

theorem Ordered.le_getLast (ordered : Ordered key rows) {row last : α} (member : row ∈ rows)
    (ends : rows.getLast? = some last) : key row ≤ key last := by
  obtain ⟨before, rfl⟩ := List.getLast?_eq_some_iff.mp ends
  rcases List.mem_append.mp member with earlier | own
  · exact ((List.pairwise_append.mp ordered).2.2 row earlier last (by simp)).le
  · rw [List.mem_singleton.mp own]

theorem foldl_merge_take (limit : Nat) {scans : List (List α)} {read : List α}
    (distinct : Distinct key (read ++ scans.flatten)) :
    scans.foldl
        (fun page scan =>
          (page.merge ((scan.mergeSort (notAfter key)).take limit) (notAfter key)).take limit)
        ((read.mergeSort (notAfter key)).take limit) =
      ((read ++ scans.flatten).mergeSort (notAfter key)).take limit := by
  induction scans generalizing read with
  | nil => simp
  | cons scan rest induction =>
      rw [List.flatten_cons, ← List.append_assoc] at distinct ⊢
      rw [List.foldl_cons, take_merge_take limit _ _ (le_refl _) (le_refl _)]
      obtain ⟨both, _, _⟩ := List.pairwise_append.mp distinct
      obtain ⟨first, second, apart⟩ := List.pairwise_append.mp both
      have merged : (read.mergeSort (notAfter key)).merge (scan.mergeSort (notAfter key))
          (notAfter key) = (read ++ scan).mergeSort (notAfter key) := by
        refine ((Distinct.ordered_mergeSort first).merge (Distinct.ordered_mergeSort second)
          ?_).eq_of_mem_iff (Distinct.ordered_mergeSort both) fun row => ?_
        · intro row member other present
          exact apart row (List.mem_mergeSort.mp member) other (List.mem_mergeSort.mp present)
        · simp [List.mem_merge, List.mem_mergeSort]
      rw [merged]
      exact induction distinct

end

end CityPods.Foundation.Keyset
