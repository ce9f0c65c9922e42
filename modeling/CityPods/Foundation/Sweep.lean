import Mathlib.Algebra.Order.Floor.Div
import CityPods.Foundation.Keyset

/-! # Sweeps

A queue that is read from its head every time, and beyond the head from a
frontier that moves on by a page and starts over at the end: after enough turns
every row has been read, wherever the frontier began.
-/

namespace CityPods.Foundation.Sweep

open Keyset (Ordered)

variable {α κ : Type*} [LinearOrder κ] (key : α → κ)

/-! ## One turn -/

def behind (after : Option κ) (rows : List α) : List α :=
  rows.filter fun row => decide (∀ start ∈ after, start < key row)

/-- The further of the end of the head and the frontier. -/
def startAfter (last : Option κ) (frontier : Option κ) : Option κ :=
  match last, frontier with
  | some last, some frontier => if last < frontier then some frontier else some last
  | some last, none => some last
  | none, frontier => frontier

/-- The rows beyond the head that a turn reads. -/
def extension (head extra : Nat) (rows : List α) (frontier : Option κ) : List α :=
  (behind key (startAfter ((rows.take head).getLast?.map key) frontier) rows).take extra

def reads (head extra : Nat) (rows : List α) (frontier : Option κ) : List α :=
  if rows.length < head then rows
  else rows.take head ++ extension key head extra rows frontier

/-- Where the next turn goes on: at the start again after a page that is not full. -/
def next (head extra : Nat) (rows : List α) (frontier : Option κ) : Option κ :=
  if rows.length < head then frontier
  else
    let read := extension key head extra rows frontier
    if read.length < extra then none else read.getLast?.map key

/-! ## Rows behind a cursor -/

def passed (cursor : Option κ) (rows : List α) : Nat :=
  match cursor with
  | none => 0
  | some cursor => rows.countP fun row => key row ≤ cursor

variable {key} {rows : List α}

theorem passed_le (cursor : Option κ) : passed key cursor rows ≤ rows.length := by
  cases cursor with
  | none => exact Nat.zero_le _
  | some cursor => exact List.countP_le_length

theorem behind_eq_drop (ordered : Ordered key rows) (cursor : Option κ) :
    behind key cursor rows = rows.drop (passed key cursor rows) := by
  cases cursor with
  | none => simp [behind, passed]
  | some cursor =>
      show rows.filter _ = rows.drop (rows.countP _)
      induction rows with
      | nil => rfl
      | cons row rest induction =>
          obtain ⟨later, others⟩ := List.pairwise_cons.mp ordered
          by_cases before : key row ≤ cursor
          · rw [List.filter_cons_of_neg (by simpa using before),
              List.countP_cons_of_pos (by simpa using before), List.drop_succ_cons]
            exact induction others
          · have none_ (other : α) (member : other ∈ rest) : ¬ key other ≤ cursor :=
              fun reached => before ((later other member).le.trans reached)
            have kept : rest.filter (fun row => decide (∀ start ∈ some cursor, start < key row)) =
                rest := List.filter_eq_self.mpr fun other member => by
              simpa using none_ other member
            have zero : rest.countP (fun row => decide (key row ≤ cursor)) = 0 :=
              List.countP_eq_zero.mpr fun other member => by simpa using none_ other member
            rw [List.filter_cons_of_pos (by simpa using before), kept,
              List.countP_cons_of_neg (by simpa using before), zero, List.drop_zero]

theorem passed_getElem (ordered : Ordered key rows) {index : Nat} (within : index < rows.length) :
    passed key (some (key rows[index])) rows = index + 1 := by
  induction rows generalizing index with
  | nil => exact absurd within (Nat.not_lt_zero _)
  | cons row rest induction =>
      obtain ⟨later, others⟩ := List.pairwise_cons.mp ordered
      cases index with
      | zero =>
          have zero : rest.countP (fun other => decide (key other ≤ key row)) = 0 :=
            List.countP_eq_zero.mpr fun other member => by simpa using later other member
          show (row :: rest).countP _ = 1
          rw [List.countP_cons_of_pos (by simp)]
          exact congrArg (· + 1) zero
      | succ index =>
          have inside : index < rest.length := by simpa using within
          have counted := induction others inside
          have before : key row ≤ key rest[index] := (later _ (List.getElem_mem inside)).le
          show (row :: rest).countP _ = index + 1 + 1
          rw [List.countP_cons_of_pos (by simpa using before)]
          exact congrArg (· + 1) counted

theorem passed_mono {cursor other : κ} (before : cursor ≤ other) :
    passed key (some cursor) rows ≤ passed key (some other) rows :=
  List.countP_mono_left fun row _ reached => by
    simpa using (of_decide_eq_true reached : key row ≤ cursor).trans before

/-! ## Where a turn reads -/

/-- The row at which a turn goes on behind the head. -/
def place (key : α → κ) (head : Nat) (rows : List α) (frontier : Option κ) : Nat :=
  max head (passed key frontier rows)

section

variable {head extra : Nat} (ordered : Ordered key rows) (long : head ≤ rows.length)
  (headed : 0 < head) (frontier : Option κ)

include ordered long headed

theorem passed_startAfter :
    passed key (startAfter ((rows.take head).getLast?.map key) frontier) rows =
      place key head rows frontier := by
  have inside : head - 1 < rows.length := by omega
  have last : (rows.take head).getLast?.map key = some (key rows[head - 1]) := by
    rw [List.getLast?_eq_getElem?, List.length_take, Nat.min_eq_left long,
      List.getElem?_take_of_lt (by omega), List.getElem?_eq_getElem inside]
    rfl
  have own := passed_getElem ordered inside
  have whole : head - 1 + 1 = head := by omega
  rw [whole] at own
  rw [last, place]
  cases frontier with
  | none => rw [startAfter, own]; exact (Nat.max_zero head).symm
  | some frontier =>
      rw [startAfter]
      split
      · next beyond =>
        rw [Nat.max_eq_right]
        exact own.ge.trans (passed_mono beyond.le)
      · next within =>
        rw [Nat.max_eq_left, own]
        exact (passed_mono (not_lt.mp within)).trans own.le

theorem extension_eq : extension key head extra rows frontier =
    (rows.drop (place key head rows frontier)).take extra := by
  rw [extension, behind_eq_drop ordered, passed_startAfter ordered long headed]

theorem reads_eq : reads key head extra rows frontier =
    rows.take head ++ (rows.drop (place key head rows frontier)).take extra := by
  rw [reads, if_neg (Nat.not_lt.mpr long), extension_eq ordered long headed]

/-- A turn moves the place on by a page, or back to the head. -/
theorem place_next (more : 0 < extra) : place key head rows (next key head extra rows frontier) =
    if rows.length < place key head rows frontier + extra then head
    else place key head rows frontier + extra := by
  have read : extension key head extra rows frontier =
      (rows.drop (place key head rows frontier)).take extra :=
    extension_eq ordered long headed frontier
  rw [next, if_neg (Nat.not_lt.mpr long), read]
  generalize at_ : place key head rows frontier = start
  have bound : start ≤ rows.length := at_ ▸ max_le long (passed_le frontier)
  have least : head ≤ start := at_ ▸ Nat.le_max_left _ _
  have count : ((rows.drop start).take extra).length = min extra (rows.length - start) := by
    rw [List.length_take, List.length_drop]
  dsimp only
  rw [count]
  by_cases short : rows.length < start + extra
  · rw [if_pos (by omega), if_pos short]
    exact Nat.max_zero head
  · rw [if_neg (by omega), if_neg short]
    have inside : start + extra - 1 < rows.length := by omega
    have last : ((rows.drop start).take extra).getLast? = some rows[start + extra - 1] := by
      rw [List.getLast?_eq_getElem?, count, List.getElem?_take_of_lt (by omega), List.getElem?_drop]
      rw [show start + (min extra (rows.length - start) - 1) = start + extra - 1 by omega]
      exact List.getElem?_eq_getElem inside
    rw [last, Option.map_some, place, passed_getElem ordered inside]
    omega

end

/-! ## Turn after turn -/

section

variable {head extra : Nat} {frontier : Nat → Option κ} {turns : Nat}

/-- The turns go on where the ones before them stopped. -/
def Follows (key : α → κ) (head extra : Nat) (rows : List α) (frontier : Nat → Option κ)
    (turns : Nat) : Prop :=
  ∀ turn, turn + 1 < turns →
    frontier (turn + 1) = next key head extra rows (frontier turn)

variable (ordered : Ordered key rows) (long : head ≤ rows.length) (headed : 0 < head)
  (more : 0 < extra) (follows : Follows key head extra rows frontier turns)

include ordered long headed more follows

variable {first steps : Nat}

/-- Until it comes to the end, a sweep moves on by a page a turn. -/
theorem place_add (within : first + steps < turns)
    (room : place key head rows (frontier first) + steps * extra ≤ rows.length) :
    place key head rows (frontier (first + steps)) =
      place key head rows (frontier first) + steps * extra := by
  induction steps with
  | zero => simp
  | succ steps induction =>
      rw [Nat.succ_mul] at room ⊢
      have earlier := induction (by omega) (by omega)
      rw [← Nat.add_assoc first steps 1, follows (first + steps) (by omega),
        place_next ordered long headed _ more, earlier, if_neg (by omega)]
      omega

variable {index : Nat}

/-- The row is on the page that the sweep comes to so many turns later. -/
theorem read_after (inside : index < rows.length)
    (reached : place key head rows (frontier first) + steps * extra ≤ index)
    (left : index < place key head rows (frontier first) + steps * extra + extra)
    (within : first + steps < turns) :
    ∃ turn < turns, rows[index] ∈ reads key head extra rows (frontier turn) := by
  refine ⟨first + steps, within, ?_⟩
  have there := place_add ordered long headed more follows within (by omega)
  rw [reads_eq ordered long headed, there]
  generalize place key head rows (frontier first) + steps * extra = start at reached left
  refine List.mem_append_right _ (List.mem_iff_getElem?.mpr ⟨index - start, ?_⟩)
  rw [List.getElem?_take_of_lt (by omega), List.getElem?_drop, Nat.add_sub_cancel' reached]
  exact List.getElem?_eq_getElem inside

/-- Some turns after a place, every row behind it has been read. -/
theorem read_from (inside : index < rows.length)
    (reached : place key head rows (frontier first) ≤ index)
    (time : first + (index - place key head rows (frontier first)) / extra < turns) :
    ∃ turn < turns, rows[index] ∈ reads key head extra rows (frontier turn) := by
  have pages := Nat.div_add_mod (index - place key head rows (frontier first)) extra
  have rest := Nat.mod_lt (index - place key head rows (frontier first)) more
  rw [Nat.mul_comm] at pages
  exact read_after ordered long headed more follows inside (by omega) (by omega) time

/-- The turn after the last full page begins at the head again. -/
theorem place_round
    (time : first + ((rows.length - place key head rows (frontier first)) / extra + 1) < turns) :
    place key head rows (frontier (first +
      ((rows.length - place key head rows (frontier first)) / extra + 1))) = head := by
  have pages := Nat.div_add_mod (rows.length - place key head rows (frontier first)) extra
  have rest := Nat.mod_lt (rows.length - place key head rows (frontier first)) more
  have bound : place key head rows (frontier first) ≤ rows.length := max_le long (passed_le _)
  rw [Nat.mul_comm] at pages
  rw [← Nat.add_assoc] at time ⊢
  have end_ := place_add ordered long headed more follows (Nat.lt_of_succ_lt time) (by omega)
  rw [follows _ time, place_next ordered long headed _ more, end_, if_pos (by omega)]

theorem read_all (time : rows.length ⌈/⌉ extra + 2 ≤ turns) {row : α} (member : row ∈ rows) :
    ∃ turn < turns, row ∈ reads key head extra rows (frontier turn) := by
  obtain ⟨index, inside, rfl⟩ := List.mem_iff_getElem.mp member
  have least : head ≤ place key head rows (frontier 0) := Nat.le_max_left _ _
  have bound : place key head rows (frontier 0) ≤ rows.length := max_le long (passed_le _)
  have slack : (rows.length - head) / extra + 2 ≤ turns := by
    rw [Nat.ceilDiv_eq_add_pred_div] at time
    exact (Nat.add_le_add_right (Nat.div_le_div_right (by omega)) 2).trans time
  by_cases early : index < head
  · refine ⟨0, Nat.lt_of_lt_of_le (Nat.succ_pos _) slack, ?_⟩
    rw [reads_eq ordered long headed]
    refine List.mem_append_left _ (List.mem_iff_getElem?.mpr ⟨index, ?_⟩)
    rw [List.getElem?_take_of_lt early]
    exact List.getElem?_eq_getElem inside
  · rcases Nat.lt_or_ge index (place key head rows (frontier 0)) with before | after
    · -- the sweep comes to the end, and from the head to the row
      have both : (rows.length - place key head rows (frontier 0)) / extra +
          (index - head) / extra ≤ (rows.length - head) / extra :=
        Nat.div_add_div_le_add_div.trans (Nat.div_le_div_right (by omega))
      have around : 0 + ((rows.length - place key head rows (frontier 0)) / extra + 1) +
          (index - head) / extra < turns := by
        refine Nat.lt_of_lt_of_le ?_ slack
        rw [Nat.zero_add, Nat.add_right_comm]
        exact Nat.lt_succ_of_le (Nat.succ_le_succ both)
      have time := Nat.lt_of_le_of_lt (Nat.le_add_right _ _) around
      have round := place_round ordered long headed more follows time
      exact read_from ordered long headed more follows inside (by rw [round]; omega)
        (by rwa [round])
    · have pages : (index - place key head rows (frontier 0)) / extra ≤
          (rows.length - head) / extra := Nat.div_le_div_right (by omega)
      refine read_from ordered long headed more follows inside after ?_
      rw [Nat.zero_add]
      exact Nat.lt_of_le_of_lt pages (Nat.lt_of_lt_of_le (by omega) slack)

end

end CityPods.Foundation.Sweep
