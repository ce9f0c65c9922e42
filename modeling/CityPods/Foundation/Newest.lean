import Mathlib.Data.List.Sort
import Mathlib.Order.WithBot

/-! # The newest first

Items in descending order of their keys, equal keys in the order in which they were
given. Taking the first few before more items arrive changes nothing about the
first few afterwards, as long as keys other than the least are not repeated.
-/

namespace CityPods.Foundation

variable {α β κ : Type} [LinearOrder κ]

abbrev NoOlder (key : α → κ) (first second : α) : Prop := key second ≤ key first

def newest (key : α → κ) (items : List α) : List α := items.insertionSort (NoOlder key)

section

variable {key : α → κ} {items : List α} {item : α}

instance : Std.Total (NoOlder key) :=
  ⟨fun first second => le_total (key second) (key first)⟩

instance : IsTrans α (NoOlder key) :=
  ⟨fun _ _ _ second first => first.trans second⟩

theorem newest_perm : (newest key items).Perm items := List.perm_insertionSort _ items

theorem mem_newest : item ∈ newest key items ↔ item ∈ items := newest_perm.mem_iff

theorem newest_pairwise : (newest key items).Pairwise (NoOlder key) :=
  List.pairwise_insertionSort _ items

theorem newest_of_pairwise (sorted : items.Pairwise (NoOlder key)) :
    newest key items = items :=
  sorted.insertionSort_eq

theorem map_newest {project : α → β} {other : β → κ}
    (same : ∀ item ∈ items, other (project item) = key item) :
    (newest key items).map project = newest other (items.map project) := by
  refine List.map_insertionSort _ _ _ _ fun first member second later => ?_
  rw [NoOlder, NoOlder, same first member, same second later]

/-! ### Inserting an item -/

theorem orderedInsert_head (last : ∀ other ∈ items, key other ≤ key item) :
    items.orderedInsert (NoOlder key) item = item :: items := by
  cases items with
  | nil => rfl
  | cons head rest =>
      exact List.orderedInsert_cons_of_le (NoOlder key) rest (last head List.mem_cons_self)

variable {front back : List α}

theorem orderedInsert_append (last : ∀ other ∈ back, key other ≤ key item) :
    (front ++ back).orderedInsert (NoOlder key) item =
      front.orderedInsert (NoOlder key) item ++ back := by
  induction front with
  | nil => exact orderedInsert_head last
  | cons head rest induction =>
      by_cases before : NoOlder key item head
      · rw [List.cons_append, List.orderedInsert_cons_of_le (NoOlder key) _ before,
          List.orderedInsert_cons_of_le (NoOlder key) _ before]
        rfl
      · rw [List.cons_append, List.orderedInsert_of_not_le (NoOlder key) _ before,
          List.orderedInsert_of_not_le (NoOlder key) _ before, induction]
        rfl

theorem orderedInsert_skip (first : ∀ other ∈ front, ¬ key other ≤ key item) :
    (front ++ back).orderedInsert (NoOlder key) item =
      front ++ back.orderedInsert (NoOlder key) item := by
  induction front with
  | nil => rfl
  | cons head rest induction =>
      obtain ⟨here, later⟩ := List.forall_mem_cons.mp first
      rw [List.cons_append, List.orderedInsert_of_not_le (NoOlder key) _ here, induction later]
      rfl

end

/-! ## Lists of which one is a part of the other -/

section

variable {part whole : List α} {n : Nat}

theorem take_of_sublist (sublist : part.Sublist whole) (nodup : whole.Nodup)
    (first : ∀ item ∈ whole.take n, item ∈ part) : part.take n = whole.take n := by
  induction sublist generalizing n with
  | slnil => rfl
  | cons head sublist induction =>
      cases n with
      | zero => rfl
      | succ n =>
          have inside := sublist.subset (first head (by simp))
          exact absurd inside (List.nodup_cons.mp nodup).1
  | cons_cons head sublist induction =>
      cases n with
      | zero => rfl
      | succ n =>
          obtain ⟨fresh, later⟩ := List.nodup_cons.mp nodup
          rw [List.take_succ_cons, List.take_succ_cons]
          refine congrArg _ (induction later fun item member => ?_)
          rcases List.mem_cons.mp (first item (by simp [member])) with rfl | inside
          · exact absurd (List.mem_of_mem_take member) fresh
          · exact inside

theorem mem_take_of_sublist (sublist : part.Sublist whole) (nodup : whole.Nodup) {item : α}
    (inside : item ∈ part) (first : item ∈ whole.take n) : item ∈ part.take n := by
  induction sublist generalizing n with
  | slnil => cases inside
  | cons head sublist induction =>
      cases n with
      | zero => cases first
      | succ n =>
          obtain ⟨fresh, later⟩ := List.nodup_cons.mp nodup
          rw [List.take_succ_cons] at first
          rcases List.mem_cons.mp first with rfl | first
          · exact absurd (sublist.subset inside) fresh
          · exact (List.take_sublist_take_left (Nat.le_succ n)).subset (induction later inside first)
  | cons_cons head sublist induction =>
      cases n with
      | zero => cases first
      | succ n =>
          obtain ⟨fresh, later⟩ := List.nodup_cons.mp nodup
          rw [List.take_succ_cons] at first ⊢
          rcases List.mem_cons.mp inside with rfl | inside
          · exact List.mem_cons_self
          · rcases List.mem_cons.mp first with rfl | first
            · exact List.mem_cons_self
            · exact List.mem_cons_of_mem _ (induction later inside first)

end

/-! ## Items without a key -/

section

variable [OrderBot κ] (key : α → κ) (items : List α)

def keyed : List α := items.filter fun item => key item ≠ ⊥

def unkeyed : List α := items.filter fun item => key item = ⊥

end

section

variable [OrderBot κ] {key : α → κ} {items : List α} {item : α}

theorem mem_keyed : item ∈ keyed key items ↔ item ∈ items ∧ key item ≠ ⊥ := by
  simp [keyed]

theorem mem_unkeyed : item ∈ unkeyed key items ↔ item ∈ items ∧ key item = ⊥ := by
  simp [unkeyed]

theorem unkeyed_append {more : List α} :
    unkeyed key (items ++ more) = unkeyed key items ++ unkeyed key more :=
  List.filter_append items more

theorem newest_eq_append : newest key items = newest key (keyed key items) ++ unkeyed key items := by
  induction items with
  | nil => rfl
  | cons head rest induction =>
      have step : newest key (head :: rest) = (newest key rest).orderedInsert
          (NoOlder key) head := rfl
      rw [step, induction]
      by_cases bottom : key head = ⊥
      · have skipped : keyed key (head :: rest) = keyed key rest :=
          List.filter_cons_of_neg (by simpa using bottom)
        have kept : unkeyed key (head :: rest) = head :: unkeyed key rest :=
          List.filter_cons_of_pos (by simpa using bottom)
        rw [skipped, kept, orderedInsert_skip, orderedInsert_head]
        · intro other member
          rw [(mem_unkeyed.mp member).2]
          exact bot_le
        · intro other member before
          rw [bottom, le_bot_iff] at before
          exact (mem_keyed.mp (mem_newest.mp member)).2 before
      · have kept : keyed key (head :: rest) = head :: keyed key rest :=
          List.filter_cons_of_pos (by simpa using bottom)
        have skipped : unkeyed key (head :: rest) = unkeyed key rest :=
          List.filter_cons_of_neg (by simpa using bottom)
        rw [kept, skipped, orderedInsert_append]
        · rfl
        · intro other member
          rw [(mem_unkeyed.mp member).2]
          exact bot_le

end

/-! ## More items after the first few -/

section

variable [OrderBot κ] {key : α → κ}

def KeysApart (key : α → κ) (items : List α) : Prop :=
  ∀ first ∈ items, ∀ second ∈ items, key first ≠ ⊥ → key first = key second → first = second

variable {part whole : List α} {n : Nat}

theorem newest_keyed_pairwise (nodup : whole.Nodup) (apart : KeysApart key whole) :
    (newest key (keyed key whole)).Pairwise fun first second => key second < key first := by
  have distinct : (newest key (keyed key whole)).Nodup :=
    newest_perm.nodup_iff.mpr (nodup.filter _)
  refine (newest_pairwise.and distinct).imp_of_mem fun {first second} member later both => ?_
  obtain ⟨inside, hasKey⟩ := mem_keyed.mp (mem_newest.mp member)
  obtain ⟨also, _⟩ := mem_keyed.mp (mem_newest.mp later)
  exact lt_of_le_of_ne both.1 fun same =>
    both.2 (apart first inside second also hasKey same.symm)

theorem newest_keyed_sublist (partNodup : part.Nodup) (nodup : whole.Nodup)
    (apart : KeysApart key whole) (subset : ∀ item ∈ part, item ∈ whole) :
    (newest key (keyed key part)).Sublist (newest key (keyed key whole)) := by
  have partApart : KeysApart key part := fun first member second later =>
    apart first (subset first member) second (subset second later)
  have antisymm : Std.Antisymm fun first second : α => key second < key first :=
    ⟨fun first second less more => absurd less (lt_asymm more)⟩
  refine List.sublist_of_subperm_of_pairwise ?_ (newest_keyed_pairwise partNodup partApart)
    (newest_keyed_pairwise nodup apart)
  refine List.subperm_of_subset (newest_perm.nodup_iff.mpr (partNodup.filter _)) fun item member => ?_
  obtain ⟨inside, hasKey⟩ := mem_keyed.mp (mem_newest.mp member)
  exact mem_newest.mpr (mem_keyed.mpr ⟨subset item inside, hasKey⟩)

variable [DecidableEq α]

/-- The items, and those of `more` that are new. -/
def joined (items more : List α) : List α := items ++ more.filter (· ∉ items)

variable {items more : List α}

theorem mem_joined {item : α} :
    item ∈ joined items more ↔ item ∈ items ∨ item ∈ more := by
  by_cases inside : item ∈ items <;> simp [joined, inside]

theorem joined_nodup (nodup : items.Nodup) (moreNodup : more.Nodup) :
    (joined items more).Nodup := by
  refine List.nodup_append.mpr ⟨nodup, moreNodup.filter _, fun first member second later same => ?_⟩
  have new : second ∉ items := by simpa using (List.mem_filter.mp later).2
  exact new (same ▸ member)

/-- Some of the late items are early; among those without a key that are not
old, the early ones come first. -/
structure Arrivals (key : α → κ) (old early late : List α) : Prop where
  oldNodup : old.Nodup
  earlyNodup : early.Nodup
  lateNodup : late.Nodup
  included : ∀ item ∈ early, item ∈ late
  apart : KeysApart key (joined old late)
  first : unkeyed key (early.filter (· ∉ old)) <+: unkeyed key (late.filter (· ∉ old))

section

variable {old early late : List α} {item : α}

theorem Arrivals.subset (arrivals : Arrivals key old early late)
    (member : item ∈ joined old early) : item ∈ joined old late :=
  mem_joined.mpr ((mem_joined.mp member).imp_right (arrivals.included item))

theorem Arrivals.unkeyed_prefix (arrivals : Arrivals key old early late) :
    unkeyed key (joined old early) <+: unkeyed key (joined old late) := by
  obtain ⟨rest, split⟩ := arrivals.first
  rw [joined, joined, unkeyed_append, unkeyed_append, ← split, ← List.append_assoc]
  exact List.prefix_append _ _

theorem Arrivals.sublist (arrivals : Arrivals key old early late) :
    (newest key (joined old early)).Sublist (newest key (joined old late)) := by
  rw [newest_eq_append, @newest_eq_append _ _ _ _ _ (joined old late)]
  refine List.Sublist.append ?_ arrivals.unkeyed_prefix.sublist
  exact newest_keyed_sublist (joined_nodup arrivals.oldNodup arrivals.earlyNodup)
    (joined_nodup arrivals.oldNodup arrivals.lateNodup) arrivals.apart
    fun item member => arrivals.subset member

theorem Arrivals.later_subset (arrivals : Arrivals key old early late)
    (member : item ∈ joined ((newest key (joined old early)).take n) late) :
    item ∈ joined old late := by
  rcases mem_joined.mp member with first | later
  · exact arrivals.subset (mem_newest.mp (List.mem_of_mem_take first))
  · exact mem_joined.mpr (.inr later)

theorem Arrivals.keyed_take (arrivals : Arrivals key old early late) :
    (newest key (keyed key (joined ((newest key (joined old early)).take n) late))).take n =
      (newest key (keyed key (joined old late))).take n := by
  have earlyNodup := joined_nodup arrivals.oldNodup arrivals.earlyNodup
  have lateNodup := joined_nodup arrivals.oldNodup arrivals.lateNodup
  have firstNodup : ((newest key (joined old early)).take n).Nodup :=
    (newest_perm.nodup_iff.mpr earlyNodup).sublist (List.take_sublist n _)
  refine take_of_sublist (newest_keyed_sublist (joined_nodup firstNodup arrivals.lateNodup) lateNodup
    arrivals.apart fun item => arrivals.later_subset) (newest_perm.nodup_iff.mpr (lateNodup.filter _)) ?_
  intro item first
  obtain ⟨inside, hasKey⟩ := mem_keyed.mp (mem_newest.mp (List.mem_of_mem_take first))
  refine mem_newest.mpr (mem_keyed.mpr ⟨mem_joined.mpr ?_, hasKey⟩)
  rcases mem_joined.mp inside with inOld | later
  · refine .inl ?_
    have known : item ∈ newest key (keyed key (joined old early)) :=
      mem_newest.mpr (mem_keyed.mpr ⟨mem_joined.mpr (.inl inOld), hasKey⟩)
    have sublist : (newest key (keyed key (joined old early))).Sublist
        (newest key (keyed key (joined old late))) :=
      newest_keyed_sublist earlyNodup lateNodup arrivals.apart fun item => arrivals.subset
    have soon := mem_take_of_sublist sublist (newest_perm.nodup_iff.mpr (lateNodup.filter _)) known first
    rw [newest_eq_append, List.take_append]
    exact List.mem_append_left _ soon
  · exact .inr later

omit [DecidableEq α] in
/-- Which items without a key are among the first few. -/
theorem unkeyed_take_newest {items : List α} :
    unkeyed key ((newest key items).take n) =
      (unkeyed key items).take (n - (newest key (keyed key items)).length) := by
  rw [newest_eq_append, List.take_append, unkeyed_append]
  have none : unkeyed key ((newest key (keyed key items)).take n) = [] := by
    refine List.filter_eq_nil_iff.mpr fun item member => ?_
    simpa using (mem_keyed.mp (mem_newest.mp (List.mem_of_mem_take member))).2
  have all : unkeyed key ((unkeyed key items).take (n - (newest key (keyed key items)).length)) =
      (unkeyed key items).take (n - (newest key (keyed key items)).length) := by
    refine List.filter_eq_self.mpr fun item member => ?_
    simpa using (mem_unkeyed.mp (List.mem_of_mem_take member)).2
  rw [none, all, List.nil_append]

/-- Once every early item without a key is among the first few, the late ones follow. -/
theorem Arrivals.unkeyed_joined (arrivals : Arrivals key old early late)
    (all : unkeyed key ((newest key (joined old early)).take n) = unkeyed key (joined old early)) :
    unkeyed key (joined ((newest key (joined old early)).take n) late) =
      unkeyed key (joined old late) := by
  obtain ⟨rest, split⟩ := arrivals.first
  have nodup : (unkeyed key (late.filter (· ∉ old))).Nodup := (arrivals.lateNodup.filter _).filter _
  rw [← split] at nodup
  have apart := (List.nodup_append.mp nodup).2.2
  have known : ∀ item, key item = ⊥ → (item ∈ (newest key (joined old early)).take n ↔
      item ∈ old ∨ item ∈ unkeyed key (early.filter (· ∉ old))) := by
    intro item bottom
    have among : item ∈ (newest key (joined old early)).take n ↔
        item ∈ unkeyed key (joined old early) := by
      rw [← all, mem_unkeyed]
      exact (and_iff_left bottom).symm
    rw [among, mem_unkeyed, mem_joined, mem_unkeyed, List.mem_filter]
    by_cases inOld : item ∈ old <;> simp [inOld, bottom]
  have later : unkeyed key (late.filter (· ∉ (newest key (joined old early)).take n)) = rest := by
    have parted : unkeyed key (late.filter (· ∉ (newest key (joined old early)).take n)) =
        (unkeyed key (late.filter (· ∉ old))).filter
          (· ∉ unkeyed key (early.filter (· ∉ old))) := by
      clear split nodup apart
      generalize unkeyed key (early.filter (· ∉ old)) = taken at known
      unfold unkeyed
      rw [List.filter_filter, List.filter_filter, List.filter_filter]
      refine List.filter_congr fun item _ => ?_
      by_cases bottom : key item = ⊥
      · simp [bottom, known item bottom, Bool.and_comm]
      · simp [bottom]
    rw [parted, ← split, List.filter_append, List.filter_eq_nil_iff.mpr, List.nil_append,
      List.filter_eq_self.mpr]
    · intro item member
      have new : item ∉ unkeyed key (early.filter (· ∉ old)) := fun inside =>
        apart item inside item member rfl
      simpa using new
    · intro item member
      simpa using member
  rw [joined, unkeyed_append, all, later, joined, joined, unkeyed_append, unkeyed_append, ← split,
    List.append_assoc]

/-- The first few, found before the late items, and with them. -/
theorem Arrivals.take_newest (arrivals : Arrivals key old early late) :
    (newest key (joined ((newest key (joined old early)).take n) late)).take n =
      (newest key (joined old late)).take n := by
  have keyedTake := @Arrivals.keyed_take _ _ _ _ key n _ old early late arrivals
  have lengths := congrArg List.length keyedTake
  rw [List.length_take, List.length_take] at lengths
  have fewer := (newest_keyed_sublist (joined_nodup arrivals.oldNodup arrivals.earlyNodup)
    (joined_nodup arrivals.oldNodup arrivals.lateNodup) arrivals.apart
    fun item => arrivals.subset).length_le
  rw [newest_eq_append, @newest_eq_append _ _ _ _ _ (joined old late), List.take_append,
    List.take_append, keyedTake]
  have room : n - (newest key (keyed key (joined ((newest key (joined old early)).take n)
      late))).length = n - (newest key (keyed key (joined old late))).length := by
    omega
  rw [room]
  refine congrArg _ ?_
  obtain ⟨rest, split⟩ := arrivals.unkeyed_prefix
  by_cases enough : n - (newest key (keyed key (joined old late))).length ≤
      (unkeyed key (joined old early)).length
  · have start : unkeyed key (joined ((newest key (joined old early)).take n) late) =
        (unkeyed key (joined old early)).take (n - (newest key (keyed key (joined old early))).length) ++
          unkeyed key (late.filter (· ∉ (newest key (joined old early)).take n)) := by
      rw [← unkeyed_take_newest, ← unkeyed_append]
      rfl
    rw [← split, List.take_append_of_le_length enough, start, List.take_append_of_le_length,
      List.take_take, Nat.min_eq_left]
    · omega
    · rw [List.length_take]
      omega
  · rw [arrivals.unkeyed_joined]
    rw [unkeyed_take_newest, List.take_of_length_le]
    omega

end

end

end CityPods.Foundation
