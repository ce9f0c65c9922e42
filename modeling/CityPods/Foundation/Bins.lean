import Mathlib.Data.List.Chain
import Mathlib.Data.List.Flatten
import Mathlib.Data.List.Induction
import Mathlib.Data.List.Infix

/-! # Filling bins

Chunks are put into one open bin after another. A bin is closed when the next
chunk does not go with what it holds, and a chunk is never divided.
-/

namespace CityPods.Foundation

structure Bins (α : Type) where
  closed : List (List α)
  filling : List α

namespace Bins

variable {α : Type}

def empty : Bins α := ⟨[], []⟩

/-- Close the open bin, unless nothing is in it. -/
def flush (bins : Bins α) : Bins α :=
  if bins.filling.isEmpty then bins else ⟨bins.closed ++ [bins.filling], []⟩

/-- Put a chunk with what the open bin holds, or into a bin that it opens. -/
def place (fits : List α → Bool) (bins : Bins α) (chunk : List α) : Bins α :=
  if fits (bins.filling ++ chunk) then ⟨bins.closed, bins.filling ++ chunk⟩
  else ⟨bins.flush.closed, bins.flush.filling ++ chunk⟩

/-- Put a chunk into a bin of its own, which is closed at once. -/
def placeAlone (bins : Bins α) (chunk : List α) : Bins α :=
  ⟨bins.flush.closed ++ [chunk], bins.flush.filling⟩

/-- Put an element with what the open bin holds, or into a bin that it opens; `none` where it does
not go into a bin at all. -/
def placeFitting (fits : List α → Bool) (bins : Bins α) (item : α) : Option (Bins α) :=
  if fits (bins.place fits [item]).filling then some (bins.place fits [item]) else none

theorem flush_filling (bins : Bins α) : bins.flush.filling = [] := by
  rw [flush]
  split
  · next blank => exact List.isEmpty_iff.mp blank
  · rfl

/-! ## What the bins hold -/

def Grouped (bins : Bins α) (chunks : List (List α)) : Prop :=
  ∃ (groups : List (List (List α))) (last : List (List α)),
    bins.closed = groups.map List.flatten ∧ bins.filling = last.flatten ∧
      (bins.filling = [] → last = []) ∧ groups.flatten ++ last = chunks

structure Holds (passes : List α → Prop) (bins : Bins α) (chunks : List (List α)) : Prop where
  grouped : bins.Grouped chunks
  passed : ∀ bin ∈ bins.closed, passes bin
  filling_passes : bins.filling = [] ∨ passes bins.filling

variable {passes : List α → Prop} {fits : List α → Bool} {bins : Bins α} {chunks : List (List α)}
  {chunk : List α}

theorem Holds.empty : Holds passes (empty : Bins α) [] where
  grouped := ⟨[], [], rfl, rfl, fun _ => rfl, rfl⟩
  passed _ member := absurd member List.not_mem_nil
  filling_passes := .inl rfl

theorem Holds.flush (holds : Holds passes bins chunks) : Holds passes bins.flush chunks := by
  obtain ⟨groups, last, closed, filling, blank, together⟩ := holds.grouped
  rw [Bins.flush]
  split
  · exact holds
  · next nonempty =>
      have present : bins.filling ≠ [] := fun none => nonempty (List.isEmpty_iff.mpr none)
      refine ⟨⟨groups ++ [last], [], ?_, rfl, fun _ => rfl, ?_⟩, fun bin member => ?_, .inl rfl⟩
      · simp [closed, filling]
      · simpa using together
      · rcases List.mem_append.mp member with before | this
        · exact holds.passed bin before
        · rw [List.mem_singleton.mp this]
          exact holds.filling_passes.resolve_left present

theorem Holds.flush_groups (holds : Holds passes bins chunks) :
    ∃ groups : List (List (List α)), bins.flush.closed = groups.map List.flatten ∧
      groups.flatten = chunks := by
  obtain ⟨groups, last, closed, -, blank, together⟩ := holds.flush.grouped
  rw [blank bins.flush_filling, List.append_nil] at together
  exact ⟨groups, closed, together⟩

theorem Holds.place (holds : Holds passes bins chunks) (present : chunk ≠ [])
    (fit : ∀ bin, fits bin = true → passes bin) (fitting : fits chunk = true) :
    Holds passes (bins.place fits chunk) (chunks ++ [chunk]) := by
  rw [Bins.place]
  split
  · next joined =>
      obtain ⟨groups, last, closed, filling, -, together⟩ := holds.grouped
      refine ⟨⟨groups, last ++ [chunk], closed, ?_, fun none => ?_, ?_⟩, holds.passed,
        .inr (fit _ joined)⟩
      · simp [filling]
      · exact absurd (List.append_eq_nil_iff.mp none).2 present
      · rw [← List.append_assoc, together]
  · obtain ⟨groups, closed, together⟩ := holds.flush_groups
    have only : bins.flush.filling ++ chunk = chunk := by rw [flush_filling, List.nil_append]
    rw [only]
    refine ⟨⟨groups, [chunk], closed, ?_, fun none => absurd none present, ?_⟩,
      holds.flush.passed, .inr (fit _ fitting)⟩
    · simp
    · rw [together]

theorem Holds.placeAlone (holds : Holds passes bins chunks) (passing : passes chunk) :
    Holds passes (bins.placeAlone chunk) (chunks ++ [chunk]) := by
  obtain ⟨groups, closed, together⟩ := holds.flush_groups
  rw [Bins.placeAlone, flush_filling]
  refine ⟨⟨groups ++ [[chunk]], [], ?_, rfl, fun _ => rfl, ?_⟩, fun bin member => ?_, .inl rfl⟩
  · simp [closed]
  · simp [together]
  · rcases List.mem_append.mp member with before | this
    · exact holds.flush.passed bin before
    · rw [List.mem_singleton.mp this]
      exact passing

end Bins

/-! ## Longest runs -/

/-- A list cut from its first element into runs, each extended as long as it fits. -/
structure LongestRuns {α : Type} (fits : List α → Bool) (items : List α) (runs : List (List α)) :
    Prop where
  together : runs.flatten = items
  nonempty : ∀ run ∈ runs, run ≠ []
  begins : ∀ run ∈ runs, ∀ beginning, beginning <+: run → beginning ≠ [] → fits beginning = true
  longest : runs.IsChain fun run later => fits (run ++ later.head?.toList) = false

namespace LongestRuns

variable {α : Type} {fits : List α → Bool} {items run run' : List α} {runs runs' : List (List α)}

theorem nil : LongestRuns fits [] [] :=
  ⟨rfl, fun _ listed => absurd listed List.not_mem_nil, fun _ listed => absurd listed List.not_mem_nil,
    .nil⟩

theorem tail (cut : LongestRuns fits items (run :: runs)) :
    LongestRuns fits runs.flatten runs where
  together := rfl
  nonempty other listed := cut.nonempty other (List.mem_cons_of_mem _ listed)
  begins other listed := cut.begins other (List.mem_cons_of_mem _ listed)
  longest := cut.longest.tail

/-- Where two cuts differ, the longer run would begin with the shorter one and an element more. -/
theorem first_le (cut : LongestRuns fits items (run :: runs))
    (cut' : LongestRuns fits items (run' :: runs')) : run'.length ≤ run.length := by
  by_contra longer
  have whole : run ++ runs.flatten = run' ++ runs'.flatten := by
    simpa using cut.together.trans cut'.together.symm
  rcases List.append_eq_append_iff.mp whole with ⟨more, here, rest⟩ | ⟨more, here, -⟩
  · cases more with
    | nil => simp [here] at longer
    | cons first others =>
        cases runs with
        | nil => cases rest
        | cons later further =>
            obtain ⟨head, tail, split⟩ : ∃ head tail, later = head :: tail :=
              List.exists_cons_of_ne_nil (cut.nonempty later (by simp))
            have same : head = first := by
              rw [split] at rest
              exact (List.cons.inj rest).1
            have stopped := (List.isChain_cons_cons.mp cut.longest).1
            have beginning : run ++ [first] <+: run' := by
              rw [here]
              exact (List.prefix_append_right_inj _).mpr ⟨others, rfl⟩
            have extended := cut'.begins run' List.mem_cons_self _ beginning (by simp)
            rw [split, List.head?_cons, Option.toList_some, same, extended] at stopped
            cases stopped
  · simp [here] at longer

theorem unique (cut : LongestRuns fits items runs) (cut' : LongestRuns fits items runs') :
    runs = runs' := by
  induction runs generalizing items runs' with
  | nil =>
      cases runs' with
      | nil => rfl
      | cons run' rest' =>
          have none_ := cut'.together.trans cut.together.symm
          exact absurd (List.append_eq_nil_iff.mp none_).1 (cut'.nonempty run' List.mem_cons_self)
  | cons run rest induction =>
      cases runs' with
      | nil =>
          have none_ := cut.together.trans cut'.together.symm
          exact absurd (List.append_eq_nil_iff.mp none_).1 (cut.nonempty run List.mem_cons_self)
      | cons run' rest' =>
          have whole : run ++ rest.flatten = run' ++ rest'.flatten := by
            simpa using cut.together.trans cut'.together.symm
          have length := le_antisymm (cut'.first_le cut) (cut.first_le cut')
          obtain ⟨first, later⟩ := List.append_inj whole length
          rw [first, induction cut.tail (later ▸ cut'.tail)]

variable {bins : Bins α} {item : α}

theorem flush_closed (bins : Bins α) :
    bins.flush.closed = bins.closed ++ if bins.filling = [] then [] else [bins.filling] := by
  rw [Bins.flush]
  by_cases empty : bins.filling = []
  · simp [empty]
  · simp [empty]

theorem without_last (cut : LongestRuns fits (items ++ [item]) runs) : ∃ bins : Bins α,
    runs = bins.closed ++ [bins.filling ++ [item]] ∧ LongestRuns fits items bins.flush.closed := by
  induction runs using List.reverseRecOn with
  | nil =>
      have empty : [] = items ++ [item] := cut.together
      simp at empty
  | append_singleton earlier last _ =>
      have present : last ≠ [] := cut.nonempty last (by simp)
      obtain ⟨filling, final, rfl⟩ : ∃ filling final, last = filling ++ [final] :=
        ⟨_, _, (List.dropLast_append_getLast present).symm⟩
      have whole : earlier.flatten ++ filling ++ [final] = items ++ [item] := by
        simpa using cut.together
      obtain ⟨before, same⟩ := List.append_inj' whole rfl
      obtain rfl : final = item := (List.cons.inj same).1
      refine ⟨⟨earlier, filling⟩, rfl, ?_⟩
      rw [flush_closed]
      have chain := List.isChain_append.mp cut.longest
      by_cases empty : filling = []
      · simp only [empty, if_true, List.append_nil]
        refine ⟨by simpa [empty] using before, fun run listed => cut.nonempty run (by simp [listed]),
          fun run listed => cut.begins run (by simp [listed]), chain.1⟩
      · simp only [empty, if_false]
        refine ⟨by simpa using before, fun run listed => ?_, fun run listed => ?_, ?_⟩
        · rcases List.mem_append.mp listed with old | new
          · exact cut.nonempty run (by simp [old])
          · rw [List.mem_singleton.mp new]
            exact empty
        · rcases List.mem_append.mp listed with old | new
          · exact cut.begins run (by simp [old])
          · rw [List.mem_singleton.mp new]
            exact fun beginning within => cut.begins (filling ++ [final]) (by simp) beginning
              (within.trans (List.prefix_append _ _))
        · refine List.isChain_append.mpr ⟨chain.1, .singleton _, fun run here later there => ?_⟩
          have stopped := chain.2.2 run here (filling ++ [final]) rfl
          rw [Option.mem_def, List.head?_cons, Option.some.injEq] at there
          rw [← there]
          obtain ⟨head, others, split⟩ := List.exists_cons_of_ne_nil empty
          rw [split] at stopped ⊢
          exact stopped

theorem prefix_cut {more : List α} (cut : LongestRuns fits (items ++ more) runs) :
    ∃ runs', LongestRuns fits items runs' := by
  induction more using List.reverseRecOn generalizing runs with
  | nil => exact ⟨runs, by simpa using cut⟩
  | append_singleton earlier last induction =>
      rw [← List.append_assoc] at cut
      obtain ⟨bins, -, shorter⟩ := cut.without_last
      exact induction shorter

theorem open_run (cut : LongestRuns fits items runs) (fitting : fits [item] = true)
    (full : ∀ last ∈ runs.getLast?, fits (last ++ [item]) = false) :
    LongestRuns fits (items ++ [item]) (runs ++ [[item]]) where
  together := by simp [cut.together]
  nonempty run listed := by
    rcases List.mem_append.mp listed with old | new
    · exact cut.nonempty run old
    · simp [List.mem_singleton.mp new]
  begins run listed beginning within present := by
    rcases List.mem_append.mp listed with old | new
    · exact cut.begins run old beginning within present
    · rw [List.mem_singleton.mp new] at within
      have snoc : beginning <+: [] ++ [item] := within
      rcases List.prefix_concat_iff.mp snoc with whole | shorter
      · rwa [whole, List.nil_append]
      · exact absurd (List.prefix_nil.mp shorter) present
  longest := by
    refine List.isChain_append.mpr ⟨cut.longest, .singleton _, fun last final later first => ?_⟩
    rw [Option.mem_def, List.head?_cons, Option.some.injEq] at first
    rw [← first]
    exact full last final

/-- An element goes to the last run where it fits. -/
theorem grow {earlier : List (List α)} {filling : List α}
    (cut : LongestRuns fits items (earlier ++ [filling]))
    (fitting : fits (filling ++ [item]) = true) :
    LongestRuns fits (items ++ [item]) (earlier ++ [filling ++ [item]]) where
  together := by simp [← cut.together]
  nonempty run listed := by
    rcases List.mem_append.mp listed with old | new
    · exact cut.nonempty run (by simp [old])
    · simp [List.mem_singleton.mp new]
  begins run listed beginning within present := by
    rcases List.mem_append.mp listed with old | new
    · exact cut.begins run (by simp [old]) beginning within present
    · rw [List.mem_singleton.mp new] at within
      rcases List.prefix_concat_iff.mp within with whole | shorter
      · rwa [whole]
      · exact cut.begins filling (by simp) beginning shorter present
  longest := by
    have chain := List.isChain_append.mp cut.longest
    refine List.isChain_append.mpr ⟨chain.1, .singleton _, fun run here later there => ?_⟩
    have stopped := chain.2.2 run here filling rfl
    rw [Option.mem_def, List.head?_cons, Option.some.injEq] at there
    obtain ⟨head, others, split⟩ :=
      List.exists_cons_of_ne_nil (cut.nonempty filling (by simp))
    rw [split] at stopped
    rw [← there, split]
    exact stopped

theorem place (cut : LongestRuns fits items bins.flush.closed)
    (opened : bins.filling = [] → bins.closed = [])
    (fitting : fits (bins.place fits [item]).filling = true) :
    LongestRuns fits (items ++ [item]) (bins.place fits [item]).flush.closed ∧
      (bins.place fits [item]).filling ≠ [] := by
  rw [flush_closed] at cut ⊢
  rw [Bins.place] at fitting ⊢
  by_cases joined : fits (bins.filling ++ [item]) = true
  · rw [if_pos joined]
    refine ⟨?_, by simp⟩
    by_cases empty : bins.filling = []
    · rw [if_pos empty, opened empty] at cut
      have alone : fits [item] = true := by simpa [empty] using joined
      simpa [empty, opened empty] using cut.open_run alone (by simp)
    · rw [if_neg empty] at cut
      simpa using cut.grow joined
  · rw [if_neg joined, Bins.flush_filling, List.nil_append] at fitting ⊢
    refine ⟨?_, by simp⟩
    by_cases empty : bins.filling = []
    · exact absurd (by simpa [empty] using fitting) joined
    · rw [if_neg empty] at cut
      have next := cut.open_run fitting (by simpa using joined)
      simpa [flush_closed, empty] using next

theorem no_place (cut : LongestRuns fits items bins.flush.closed)
    (opened : bins.filling = [] → bins.closed = [])
    (unfit : fits (bins.place fits [item]).filling = false) (runs : List (List α)) :
    ¬ LongestRuns fits (items ++ [item]) runs := by
  intro whole
  obtain ⟨others, rfl, shorter⟩ := whole.without_last
  have fitting := whole.begins (others.filling ++ [item]) (by simp) _ List.prefix_rfl (by simp)
  have same := cut.unique shorter
  rw [flush_closed, flush_closed] at same
  have alone : fits [item] = false := by
    rw [Bins.place] at unfit
    by_cases joined : fits (bins.filling ++ [item]) = true
    · rw [if_pos joined, joined] at unfit
      cases unfit
    · rwa [if_neg joined, Bins.flush_filling, List.nil_append] at unfit
  have joinless : fits (bins.filling ++ [item]) = false := by
    by_contra joined
    rw [Bool.not_eq_false] at joined
    rw [Bins.place, if_pos joined, joined] at unfit
    cases unfit
  have filled : others.filling ≠ [] := fun empty => by
    rw [empty, List.nil_append, alone] at fitting
    cases fitting
  by_cases empty : bins.filling = []
  · simp [empty, opened empty, filled] at same
  · rw [if_neg empty, if_neg filled] at same
    have last := (List.append_inj' same rfl).2
    rw [(List.cons.inj last).1, fitting] at joinless
    cases joinless

/-- Elements put one after another are cut into longest runs, and otherwise cannot be. -/
theorem placeAll (fits : List α → Bool) (items : List α) :
    (∀ bins, items.foldlM (Bins.placeFitting fits) Bins.empty = some bins →
      LongestRuns fits items bins.flush.closed ∧ (bins.filling = [] → bins.closed = [])) ∧
    (items.foldlM (Bins.placeFitting fits) Bins.empty = none →
      ∀ runs, ¬ LongestRuns fits items runs) := by
  induction items using List.reverseRecOn with
  | nil =>
      refine ⟨fun bins same => ?_, fun absurd_ => by cases absurd_⟩
      cases same
      exact ⟨nil, fun _ => rfl⟩
  | append_singleton earlier last induction =>
      rw [List.foldlM_append]
      cases before : earlier.foldlM (Bins.placeFitting fits) Bins.empty with
      | none =>
          refine ⟨fun bins same => (by cases same), fun _ runs whole => ?_⟩
          obtain ⟨runs', shorter⟩ := whole.prefix_cut
          exact induction.2 before runs' shorter
      | some bins =>
          obtain ⟨cut, opened⟩ := induction.1 bins before
          have step : (some bins >>= fun bins => [last].foldlM (Bins.placeFitting fits) bins) =
              bins.placeFitting fits last := by simp
          rw [step, Bins.placeFitting]
          by_cases fitting : fits (bins.place fits [last]).filling = true
          · rw [if_pos fitting]
            obtain ⟨whole, filled⟩ := cut.place opened fitting
            refine ⟨fun next same => ?_, fun absurd_ => by cases absurd_⟩
            cases same
            exact ⟨whole, fun empty => absurd empty filled⟩
          · rw [if_neg fitting]
            exact ⟨fun next same => (by cases same), fun _ runs =>
              cut.no_place opened (by simpa using fitting) runs⟩

end LongestRuns

end CityPods.Foundation
