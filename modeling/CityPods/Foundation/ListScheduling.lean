import Mathlib.Algebra.BigOperators.Fin
import Mathlib.Algebra.Order.BigOperators.Group.Finset
import Mathlib.Algebra.Order.Field.Basic
import Mathlib.Combinatorics.Pigeonhole
import Mathlib.Tactic.FieldSimp
import Mathlib.Tactic.Linarith

/-! # List scheduling

Jobs are given to machines one after another, each to a machine that is least
loaded at that time. The loads then differ by one job at most. When the jobs
come longest first, the largest load is within `4/3 - 1/(3m)` of what any
assignment to `m` machines achieves.
-/

namespace CityPods.Foundation.ListScheduling

variable {𝕜 ι : Type} [Field 𝕜] [LinearOrder 𝕜] [IsStrictOrderedRing 𝕜] [DecidableEq ι]
  {jobs : Nat}

/-! ## Loads -/

/-- The jobs before `time` that a machine has. -/
def jobsBefore (assigned : Fin jobs → ι) (time : Nat) (machine : ι) : Finset (Fin jobs) :=
  Finset.univ.filter fun job => job.val < time ∧ assigned job = machine

def loadBefore (weight : Fin jobs → 𝕜) (assigned : Fin jobs → ι) (time : Nat) (machine : ι) : 𝕜 :=
  ∑ job ∈ jobsBefore assigned time machine, weight job

def load (weight : Fin jobs → 𝕜) (assigned : Fin jobs → ι) (machine : ι) : 𝕜 :=
  loadBefore weight assigned jobs machine

/-- Every job goes to a machine that is least loaded when its turn comes. -/
def Greedy (weight : Fin jobs → 𝕜) (assigned : Fin jobs → ι) : Prop :=
  ∀ (job : Fin jobs) (machine : ι),
    loadBefore weight assigned job (assigned job) ≤ loadBefore weight assigned job machine

section

variable {weight : Fin jobs → 𝕜} {assigned : Fin jobs → ι} {time : Nat} {machine : ι}
  {job : Fin jobs}

theorem mem_jobsBefore :
    job ∈ jobsBefore assigned time machine ↔ job.val < time ∧ assigned job = machine := by
  simp [jobsBefore]

theorem loadBefore_nonneg (nonneg : ∀ job, 0 ≤ weight job) :
    0 ≤ loadBefore weight assigned time machine :=
  Finset.sum_nonneg fun job _ => nonneg job

theorem sum_le_load (nonneg : ∀ job, 0 ≤ weight job) {some : Finset (Fin jobs)}
    (all : ∀ job ∈ some, assigned job = machine) :
    ∑ job ∈ some, weight job ≤ load weight assigned machine := by
  rw [load, loadBefore]
  apply Finset.sum_le_sum_of_subset_of_nonneg
  · intro job member
    exact mem_jobsBefore.mpr ⟨job.isLt, all job member⟩
  · exact fun job _ _ => nonneg job

theorem loadBefore_le_load (nonneg : ∀ job, 0 ≤ weight job) :
    loadBefore weight assigned time machine ≤ load weight assigned machine :=
  sum_le_load nonneg fun _ member => (mem_jobsBefore.mp member).2

theorem weight_le_load (assigned : Fin jobs → ι) (nonneg : ∀ job, 0 ≤ weight job) (job : Fin jobs) :
    weight job ≤ load weight assigned (assigned job) := by
  have single : ∑ other ∈ {job}, weight other ≤ load weight assigned (assigned job) :=
    sum_le_load nonneg fun other member => by rw [Finset.mem_singleton.mp member]
  simpa using single

omit [LinearOrder 𝕜] [IsStrictOrderedRing 𝕜] in
theorem load_eq_last (weight : Fin jobs → 𝕜) (has : assigned job = machine) :
    ∃ last, assigned last = machine ∧
      load weight assigned machine = loadBefore weight assigned last machine + weight last := by
  have nonempty : (jobsBefore assigned jobs machine).Nonempty :=
    ⟨job, mem_jobsBefore.mpr ⟨job.isLt, has⟩⟩
  obtain ⟨last, member, latest⟩ := Finset.exists_max_image _ Fin.val nonempty
  have own := (mem_jobsBefore.mp member).2
  have split : jobsBefore assigned jobs machine =
      insert last (jobsBefore assigned last machine) := by
    ext other
    rw [Finset.mem_insert, mem_jobsBefore, mem_jobsBefore]
    constructor
    · intro found
      have before := latest other (mem_jobsBefore.mpr found)
      rcases Nat.lt_or_ge other.val last.val with earlier | same
      · exact .inr ⟨earlier, found.2⟩
      · exact .inl (Fin.ext (Nat.le_antisymm before same))
    · rintro (same | earlier)
      · rw [same]
        exact ⟨last.isLt, own⟩
      · exact ⟨other.isLt, earlier.2⟩
  have absent : last ∉ jobsBefore assigned last machine := fun inside =>
    Nat.lt_irrefl _ (mem_jobsBefore.mp inside).1
  refine ⟨last, own, ?_⟩
  rw [load, loadBefore, split, Finset.sum_insert absent, add_comm]
  rfl

omit [LinearOrder 𝕜] [IsStrictOrderedRing 𝕜] in
theorem load_eq_zero (idle : ∀ job, assigned job ≠ machine) :
    load weight assigned machine = 0 := by
  rw [load, loadBefore]
  apply Finset.sum_eq_zero
  intro job member
  exact absurd (mem_jobsBefore.mp member).2 (idle job)

variable {bound : 𝕜}

/-- Under a greedy assignment a machine is ahead of any other by its last job at
most. -/
theorem Greedy.load_le (greedy : Greedy weight assigned) (nonneg : ∀ job, 0 ≤ weight job)
    (bounded : ∀ job, weight job ≤ bound) (positive : 0 ≤ bound) (heavy light : ι) :
    load weight assigned heavy ≤ load weight assigned light + bound := by
  by_cases idle : ∀ job, assigned job ≠ heavy
  · rw [load_eq_zero idle]
    exact add_nonneg (loadBefore_nonneg nonneg) positive
  · obtain ⟨job, has⟩ := not_forall_not.mp idle
    obtain ⟨last, own, same⟩ := load_eq_last weight has
    have before := greedy last light
    rw [own] at before
    rw [same]
    exact add_le_add (before.trans (loadBefore_le_load nonneg)) (bounded last)

variable [Fintype ι]

omit [LinearOrder 𝕜] [IsStrictOrderedRing 𝕜] in
theorem sum_loadBefore :
    ∑ machine, loadBefore weight assigned time machine =
      ∑ job ∈ Finset.univ.filter fun job : Fin jobs => job.val < time, weight job := by
  rw [← Finset.sum_fiberwise (Finset.univ.filter fun job : Fin jobs => job.val < time) assigned]
  apply Finset.sum_congr rfl
  intro machine _
  rw [loadBefore, jobsBefore, Finset.filter_filter]

/-- The jobs up to one weigh no more than all machines can take. -/
theorem sum_until_le (assigned : Fin jobs → ι) (nonneg : ∀ job, 0 ≤ weight job)
    {other : Fin jobs → ι} (bounded : ∀ machine, load weight other machine ≤ bound) (job : Fin jobs) :
    ∑ machine, loadBefore weight assigned job machine + weight job ≤ Fintype.card ι * bound := by
  have absent : job ∉ Finset.univ.filter fun other : Fin jobs => other.val < job.val := by simp
  have all : ∑ machine, load weight other machine = ∑ job, weight job := by
    simp only [load, sum_loadBefore]
    congr 1
    ext job
    simp
  calc ∑ machine, loadBefore weight assigned job machine + weight job
      = ∑ other ∈ insert job (Finset.univ.filter fun other : Fin jobs => other.val < job.val),
          weight other := by rw [sum_loadBefore, Finset.sum_insert absent, add_comm]
    _ ≤ ∑ job, weight job :=
        Finset.sum_le_sum_of_subset_of_nonneg (Finset.subset_univ _) fun job _ _ => nonneg job
    _ = ∑ machine, load weight other machine := all.symm
    _ ≤ ∑ _machine : ι, bound := Finset.sum_le_sum fun machine _ => bounded machine
    _ = Fintype.card ι * bound := by simp

end

/-! ## Longest first -/

variable {holds : Fin jobs → Prop} {indices : Finset Nat}

theorem card_filter_val_le [DecidablePred holds] (bounds : ∀ job, holds job → job.val ∈ indices) :
    (Finset.univ.filter holds).card ≤ indices.card := by
  rw [← Finset.card_image_of_injective _ Fin.val_injective]
  apply Finset.card_le_card
  intro index member
  obtain ⟨job, found, same⟩ := Finset.mem_image.mp member
  exact same ▸ bounds job (Finset.mem_filter.mp found).2

theorem le_card_filter_val [DecidablePred holds]
    (covers : ∀ index ∈ indices, ∃ job, holds job ∧ job.val = index) :
    indices.card ≤ (Finset.univ.filter holds).card := by
  rw [← Finset.card_image_of_injective (Finset.univ.filter holds) Fin.val_injective]
  apply Finset.card_le_card
  intro index member
  obtain ⟨job, found, same⟩ := covers index member
  exact Finset.mem_image.mpr ⟨job, Finset.mem_filter.mpr ⟨Finset.mem_univ _, found⟩, same⟩

section

variable {weight : Fin jobs → 𝕜} (descending : Antitone weight) (nonneg : ∀ job, 0 ≤ weight job)

include descending nonneg

variable {bound : 𝕜} {other : Fin jobs → ι} {job : Fin jobs}

theorem card_le_two (bounded : ∀ machine, load weight other machine ≤ bound)
    (long : bound < 3 * weight job) (machine : ι) (chosen : Finset (Fin jobs))
    (until_job : ∀ earlier ∈ chosen, earlier.val ≤ job.val) :
    (chosen.filter fun earlier => other earlier = machine).card ≤ 2 := by
  by_contra three
  have many : 3 ≤ (chosen.filter fun earlier => other earlier = machine).card := by omega
  have heavy : 3 • weight job ≤
      ∑ earlier ∈ chosen.filter (fun earlier => other earlier = machine), weight earlier := by
    refine (nsmul_le_nsmul_left (nonneg job) many).trans ?_
    apply Finset.card_nsmul_le_sum
    intro earlier member
    exact descending (until_job earlier (Finset.mem_filter.mp member).1)
  have taken : ∑ earlier ∈ chosen.filter (fun earlier => other earlier = machine), weight earlier ≤
      load weight other machine :=
    sum_le_load nonneg fun earlier member => (Finset.mem_filter.mp member).2
  have total := (heavy.trans taken).trans (bounded machine)
  rw [nsmul_eq_mul] at total
  exact absurd long (not_lt_of_ge (by simpa using total))

variable [Fintype ι]

theorem exists_light (assigned : Fin jobs → ι) (job longest : Fin jobs)
    (order : longest.val ≤ job.val) (few : job.val + longest.val < 2 * Fintype.card ι) :
    ∃ machine, loadBefore weight assigned job machine ≤ weight longest := by
  let early : Finset (Fin jobs) := Finset.univ.filter fun other => other.val < longest.val
  let free : Finset ι := Finset.univ \ early.image assigned
  let later : Finset (Fin jobs) :=
    Finset.univ.filter fun other => longest.val ≤ other.val ∧ other.val < job.val
  have earlyCard : early.card ≤ longest.val := by
    have counted : early.card ≤ (Finset.range longest.val).card :=
      card_filter_val_le fun other before => Finset.mem_range.mpr before
    simpa using counted
  have laterCard : later.card ≤ job.val - longest.val := by
    have counted : later.card ≤ (Finset.Ico longest.val job.val).card :=
      card_filter_val_le fun other between => Finset.mem_Ico.mpr between
    simpa using counted
  have freeCard : free.card = Fintype.card ι - (early.image assigned).card := by
    rw [Finset.card_sdiff_of_subset (Finset.subset_univ _), Finset.card_univ]
  have images : (early.image assigned).card ≤ longest.val :=
    Finset.card_image_le.trans earlyCard
  have enough : later.card < free.card * 2 := by omega
  obtain ⟨machine, member, light⟩ := Finset.exists_card_fiber_lt_of_card_lt_mul enough
  refine ⟨machine, ?_⟩
  have inside : jobsBefore assigned job machine ⊆
      later.filter fun other => assigned other = machine := by
    intro other found
    have parts := mem_jobsBefore.mp found
    refine Finset.mem_filter.mpr ⟨Finset.mem_filter.mpr ⟨Finset.mem_univ _, ?_, parts.1⟩, parts.2⟩
    by_contra short
    have image : machine ∈ early.image assigned :=
      Finset.mem_image.mpr ⟨other,
        Finset.mem_filter.mpr ⟨Finset.mem_univ _, Nat.lt_of_not_le short⟩, parts.2⟩
    exact (Finset.mem_sdiff.mp member).2 image
  have one : (jobsBefore assigned job machine).card ≤ 1 :=
    (Finset.card_le_card inside).trans (Nat.le_of_lt_succ light)
  calc loadBefore weight assigned job machine
      ≤ (jobsBefore assigned job machine).card • weight longest := by
        apply Finset.sum_le_card_nsmul
        intro other found
        exact descending (Finset.mem_filter.mp (Finset.mem_filter.mp (inside found)).1).2.1
    _ ≤ 1 • weight longest := nsmul_le_nsmul_left (nonneg longest) one
    _ = weight longest := one_nsmul _

theorem exists_pair
    (bounded : ∀ machine, load weight other machine ≤ bound) (job longest : Fin jobs)
    (long : bound < 3 * weight job) (order : longest.val ≤ job.val)
    (many : 2 * Fintype.card ι ≤ longest.val + job.val + 1) :
    weight longest + weight job ≤ bound := by
  by_contra apart
  -- Each of the longest jobs would have a machine of its own.
  have alone : ∀ first second : Fin jobs, first.val ≤ longest.val → second.val ≤ job.val →
      other first = other second → first = second := by
    intro first second early before same
    by_contra different
    have pair : ∑ each ∈ ({first, second} : Finset (Fin jobs)), weight each ≤
        load weight other (other second) := by
      apply sum_le_load nonneg
      intro each member
      rcases Finset.mem_insert.mp member with equal | member
      · rw [equal, same]
      · rw [Finset.mem_singleton.mp member]
    rw [Finset.sum_pair different] at pair
    have heavier : weight longest + weight job ≤ weight first + weight second :=
      add_le_add (descending early) (descending before)
    exact apart ((heavier.trans pair).trans (bounded _))
  let early : Finset (Fin jobs) := Finset.univ.filter fun each => each.val ≤ longest.val
  let free : Finset ι := Finset.univ \ early.image other
  let later : Finset (Fin jobs) :=
    Finset.univ.filter fun each => longest.val < each.val ∧ each.val ≤ job.val
  have earlyCard : longest.val + 1 ≤ early.card := by
    have counted : (Finset.range (longest.val + 1)).card ≤ early.card := by
      apply le_card_filter_val
      intro index member
      have small := Finset.mem_range.mp member
      exact ⟨⟨index, by omega⟩, Nat.le_of_lt_succ small, rfl⟩
    simpa using counted
  have laterCard : job.val - longest.val ≤ later.card := by
    have counted : (Finset.Ioc longest.val job.val).card ≤ later.card := by
      apply le_card_filter_val
      intro index member
      have between := Finset.mem_Ioc.mp member
      exact ⟨⟨index, by omega⟩, between, rfl⟩
    simpa using counted
  have images : (early.image other).card = early.card := by
    apply Finset.card_image_of_injOn
    intro first firstEarly second secondEarly same
    have before : second.val ≤ longest.val := (Finset.mem_filter.mp secondEarly).2
    exact alone first second (Finset.mem_filter.mp firstEarly).2 (before.trans order) same
  have freeCard : free.card = Fintype.card ι - (early.image other).card := by
    rw [Finset.card_sdiff_of_subset (Finset.subset_univ _), Finset.card_univ]
  have fits : (early.image other).card ≤ Fintype.card ι := Finset.card_le_univ _
  have crowded : free.card * 2 < later.card := by omega
  have maps : ∀ each ∈ later, other each ∈ free := by
    intro each member
    have between := (Finset.mem_filter.mp member).2
    refine Finset.mem_sdiff.mpr ⟨Finset.mem_univ _, fun image => ?_⟩
    obtain ⟨first, firstEarly, same⟩ := Finset.mem_image.mp image
    have equal := alone first each (Finset.mem_filter.mp firstEarly).2 between.2 same
    have small := (Finset.mem_filter.mp firstEarly).2
    rw [equal] at small
    omega
  obtain ⟨machine, -, three⟩ :=
    Finset.exists_lt_card_fiber_of_mul_lt_card_of_maps_to maps crowded
  have two := card_le_two descending nonneg bounded long machine later
    fun each member => (Finset.mem_filter.mp member).2.2
  omega

variable {assigned : Fin jobs → ι}

theorem Greedy.long_last (greedy : Greedy weight assigned)
    (bounded : ∀ machine, load weight other machine ≤ bound) (long : bound < 3 * weight job) :
    loadBefore weight assigned job (assigned job) + weight job ≤ bound := by
  rcases Nat.lt_or_ge job.val (Fintype.card ι) with few | many
  · -- Some machine is still idle.
    have unused : ∃ machine, ∀ earlier : Fin jobs, earlier.val < job.val →
        assigned earlier ≠ machine := by
      let earlier : Finset (Fin jobs) := Finset.univ.filter fun each => each.val < job.val
      have counted : earlier.card ≤ (Finset.range job.val).card :=
        card_filter_val_le fun each before => Finset.mem_range.mpr before
      have images : (earlier.image assigned).card < (Finset.univ : Finset ι).card := by
        rw [Finset.card_univ]
        rw [Finset.card_range] at counted
        exact lt_of_le_of_lt (Finset.card_image_le.trans counted) few
      obtain ⟨machine, -, outside⟩ := Finset.exists_mem_notMem_of_card_lt_card images
      refine ⟨machine, fun each before same => outside (Finset.mem_image.mpr ⟨each, ?_, same⟩)⟩
      exact Finset.mem_filter.mpr ⟨Finset.mem_univ _, before⟩
    obtain ⟨machine, idle⟩ := unused
    have empty : loadBefore weight assigned job machine = 0 := by
      rw [loadBefore]
      apply Finset.sum_eq_zero
      intro each member
      have parts := mem_jobsBefore.mp member
      exact absurd parts.2 (idle each parts.1)
    have least := greedy job machine
    have own := (weight_le_load other nonneg job).trans (bounded _)
    linarith
  · have twice : job.val + 1 ≤ 2 * Fintype.card ι := by
      let until_job : Finset (Fin jobs) := Finset.univ.filter fun each => each.val ≤ job.val
      have counted : (Finset.range (job.val + 1)).card ≤ until_job.card := by
        apply le_card_filter_val
        intro index member
        have small := Finset.mem_range.mp member
        exact ⟨⟨index, by omega⟩, Nat.le_of_lt_succ small, rfl⟩
      by_contra above
      have crowded : (Finset.univ : Finset ι).card * 2 < until_job.card := by
        rw [Finset.card_univ]
        rw [Finset.card_range] at counted
        omega
      obtain ⟨machine, -, three⟩ := Finset.exists_lt_card_fiber_of_mul_lt_card_of_maps_to
        (fun each _ => Finset.mem_univ (other each)) crowded
      have two := card_le_two descending nonneg bounded long machine until_job
        fun each member => (Finset.mem_filter.mp member).2
      omega
    have within : 2 * Fintype.card ι - 1 - job.val < jobs := by omega
    have light := exists_light descending nonneg assigned job
      ⟨2 * Fintype.card ι - 1 - job.val, within⟩ (by simp only; omega) (by simp only; omega)
    obtain ⟨machine, below⟩ := light
    have pair := exists_pair descending nonneg bounded job
      ⟨2 * Fintype.card ι - 1 - job.val, within⟩ long (by simp only; omega) (by simp only; omega)
    have least := greedy job machine
    linarith

/-- Longest first: the largest load against what any assignment achieves. -/
theorem Greedy.load_le_optimum [Nonempty ι] (greedy : Greedy weight assigned)
    (bounded : ∀ machine, load weight other machine ≤ bound) (machine : ι) :
    load weight assigned machine ≤ (4 / 3 - 1 / (3 * Fintype.card ι)) * bound := by
  have some_machine : (1 : 𝕜) ≤ Fintype.card ι := by
    exact_mod_cast Nat.succ_le_of_lt Fintype.card_pos
  have positive : (0 : 𝕜) < Fintype.card ι := lt_of_lt_of_le one_pos some_machine
  have boundNonneg : 0 ≤ bound := (loadBefore_nonneg nonneg).trans (bounded machine)
  have share : 1 / (3 * (Fintype.card ι : 𝕜)) ≤ 1 / 3 := by
    apply one_div_le_one_div_of_le (by norm_num)
    linarith
  have ratio : (1 : 𝕜) ≤ 4 / 3 - 1 / (3 * Fintype.card ι) := by linarith
  by_cases idle : ∀ job, assigned job ≠ machine
  · rw [load_eq_zero idle]
    exact mul_nonneg (by linarith) boundNonneg
  · obtain ⟨job, has⟩ := not_forall_not.mp idle
    obtain ⟨last, own, same⟩ := load_eq_last weight has
    rw [same, ← own]
    rcases lt_or_ge bound (3 * weight last) with long | short
    · have within := greedy.long_last descending nonneg bounded long
      exact within.trans (le_mul_of_one_le_left boundNonneg ratio)
    · -- Every machine was at least as loaded as this one when its last job came.
      have average : Fintype.card ι * loadBefore weight assigned last (assigned last) ≤
          ∑ machine, loadBefore weight assigned last machine := by
        have each := Finset.card_nsmul_le_sum Finset.univ
          (fun machine => loadBefore weight assigned last machine) _
          fun machine _ => greedy last machine
        rwa [nsmul_eq_mul, Finset.card_univ] at each
      have total := sum_until_le assigned nonneg bounded last
      have scaled : Fintype.card ι * (loadBefore weight assigned last (assigned last) + weight last) ≤
          Fintype.card ι * bound + (Fintype.card ι - 1) * (bound / 3) := by
        have rest : (Fintype.card ι - 1) * weight last ≤ (Fintype.card ι - 1) * (bound / 3) :=
          mul_le_mul_of_nonneg_left (by linarith) (by linarith)
        nlinarith
      have cancelled : Fintype.card ι * ((4 / 3 - 1 / (3 * Fintype.card ι)) * bound) =
          Fintype.card ι * bound + (Fintype.card ι - 1) * (bound / 3) := by
        field_simp
        ring
      exact le_of_mul_le_mul_left (scaled.trans_eq cancelled.symm) positive

end

end CityPods.Foundation.ListScheduling
