import CityPods.Records.Sharding
import Mathlib.Tactic.NormNum

/-! # Shard balance

The shards are an instance of list scheduling with the longest job first: a
shard is a machine, and the assignment, which keeps the order in which the keys
were assigned, is the list of jobs.
-/

namespace CityPods.Records

open Foundation
open Foundation.ListScheduling (Greedy loadBefore mem_jobsBefore)

variable {κ : Type} [LinearOrder κ]

/-! ## The jobs of an assignment -/

section

variable {weight : κ → ℚ} {numShards : Nat}

def jobWeight (weight : κ → ℚ) (entries : Dict κ Nat) (job : Fin entries.length) : ℚ :=
  weight entries[job].1

def jobShard {entries : Dict κ Nat} {place : κ × Nat → Nat}
    (inRange : ∀ entry ∈ entries, place entry < numShards) (job : Fin entries.length) :
    Fin numShards :=
  ⟨place entries[job], inRange _ (List.getElem_mem job.isLt)⟩

variable {entries : Dict κ Nat} {place : κ × Nat → Nat}

omit [LinearOrder κ] in
theorem entryLoad_take
    (inRange : ∀ entry ∈ entries, place entry < numShards) (time : Nat) (shard : Fin numShards) :
    entryLoad weight place (entries.take time) shard =
      loadBefore (jobWeight weight entries) (jobShard inRange) time shard := by
  rw [entryLoad, List.map_take, ← List.ofFn_getElem_eq_map, List.sum_take_ofFn, loadBefore,
    ListScheduling.jobsBefore, ← Finset.filter_filter,
    Finset.sum_filter fun job => jobShard inRange job = shard]
  apply Finset.sum_congr rfl
  intro job _
  have same : jobShard inRange job = shard ↔ place entries[job] = shard := Fin.ext_iff
  simp only [same]
  rfl

omit [LinearOrder κ] in
theorem entryLoad_eq_load
    (inRange : ∀ entry ∈ entries, place entry < numShards) (shard : Fin numShards) :
    entryLoad weight place entries shard =
      ListScheduling.load (jobWeight weight entries) (jobShard inRange) shard := by
  have all : entryLoad weight place (entries.take entries.length) shard = _ :=
    entryLoad_take inRange entries.length shard
  rwa [List.take_length] at all

variable {shards : Shards κ}

omit [LinearOrder κ] in
theorem Assigned.inRange (assigned : Assigned weight numShards shards) :
    ∀ entry ∈ shards.assignment, entry.2 < numShards := by
  intro entry member
  obtain ⟨before, after, split⟩ := List.append_of_mem member
  exact (assigned.least before entry after split).1

omit [LinearOrder κ] in
/-- A key goes to the shard of least rank, hence of least load. -/
theorem Assigned.greedy (assigned : Assigned weight numShards shards) :
    Greedy (jobWeight weight shards.assignment) (jobShard assigned.inRange) := by
  intro job shard
  have split : shards.assignment = shards.assignment.take job ++
      shards.assignment[job] :: shards.assignment.drop (job + 1) := by
    rw [Fin.getElem_fin, List.getElem_cons_drop, List.take_append_drop]
  have rank := (assigned.least _ _ _ split).2 shard shard.isLt
  rw [← entryLoad_take assigned.inRange, ← entryLoad_take assigned.inRange]
  rcases Prod.Lex.le_iff.mp rank with less | ⟨same, _⟩
  · exact le_of_lt less
  · exact le_of_eq same

omit [LinearOrder κ] in
theorem entryLoad_nonneg (nonneg : ∀ entry ∈ entries, 0 ≤ weight entry.1) (shard : Nat) :
    0 ≤ entryLoad weight place entries shard := by
  apply List.sum_nonneg
  intro load member
  obtain ⟨entry, inside, same⟩ := List.mem_map.mp member
  rw [← same]
  split_ifs
  · exact nonneg entry inside
  · exact le_refl 0

variable {shard : Nat}

omit [LinearOrder κ] in
theorem entryLoad_unused (unused : shard ∉ entries.values) :
    entryLoad weight Prod.snd entries shard = 0 := by
  apply List.sum_eq_zero
  intro load member
  obtain ⟨entry, inside, same⟩ := List.mem_map.mp member
  have different : entry.2 ≠ shard := fun equal => unused (equal ▸ List.mem_map_of_mem inside)
  rw [← same, if_neg different]

omit [LinearOrder κ] in
/-- While a shard is empty, only empty shards are given a key. -/
theorem Assigned.fresh (assigned : Assigned weight numShards shards)
    (nonneg : ∀ entry ∈ shards.assignment, 0 ≤ weight entry.1)
    (bound : shard < numShards) {before after : Dict κ Nat} {entry : κ × Nat}
    (split : shards.assignment = before ++ entry :: after) (unused : shard ∉ before.values) :
    entry.2 ∉ before.values := by
  have rank := (assigned.least before entry after split).2 shard bound
  have noCount : entryCount before shard = 0 := List.count_eq_zero.mpr unused
  have someLoad : 0 ≤ entryLoad weight Prod.snd before entry.2 :=
    entryLoad_nonneg (fun other inside => nonneg other (split ▸ List.mem_append_left _ inside)) _
  rw [shardRank, shardRank, entryLoad_unused unused, noCount, Prod.Lex.le_iff] at rank
  rcases rank with less | ⟨_, rest⟩
  · exact absurd someLoad (not_le_of_gt less)
  · have count : entryCount before entry.2 = 0 := by
      rcases Prod.Lex.le_iff.mp rest with less | ⟨same, _⟩
      · exact absurd less (Nat.not_lt_zero _)
      · exact same
    exact List.count_eq_zero.mp count

omit [LinearOrder κ] in
theorem Assigned.filled (assigned : Assigned weight numShards shards)
    (nonneg : ∀ entry ∈ shards.assignment, 0 ≤ weight entry.1)
    (enough : numShards ≤ shards.assignment.length) (bound : shard < numShards) :
    shard ∈ shards.assignment.values := by
  by_contra empty
  have nodup : shards.assignment.values.Nodup := by
    rw [List.Nodup, List.pairwise_iff_getElem]
    intro first second firstBound secondBound order same
    rw [Dict.values, List.length_map] at firstBound secondBound
    have split : shards.assignment = shards.assignment.take second ++
        shards.assignment[second] :: shards.assignment.drop (second + 1) := by
      rw [List.getElem_cons_drop, List.take_append_drop]
    have unused : shard ∉ Dict.values (shards.assignment.take second) := by
      intro member
      exact empty (List.map_subset _ (List.take_subset _ _) member)
    apply assigned.fresh nonneg bound split unused
    simp only [Dict.values, List.getElem_map] at same
    rw [← same]
    exact List.mem_map_of_mem (List.mem_take_iff_getElem.mpr ⟨first, by omega, rfl⟩)
  have others : shards.assignment.values ⊆ (List.range numShards).erase shard := by
    intro other member
    obtain ⟨entry, inside, same⟩ := List.mem_map.mp member
    rw [List.nodup_range.mem_erase_iff, List.mem_range]
    refine ⟨fun equal => empty (equal ▸ member), ?_⟩
    rw [← same]
    exact assigned.inRange entry inside
  have short := (nodup.subperm others).length_le
  rw [List.length_erase_of_mem (List.mem_range.mpr bound), List.length_range, Dict.values,
    List.length_map] at short
  omega

end

/-! ## The partition -/

/-- The work of a shard when every key has the shard that `shardOf` tells. -/
def shardLoad (weight : κ → ℚ) (sourceKeys : List κ) (shardOf : κ → Nat) (shard : Nat) : ℚ :=
  ((Dict.sortedSet sourceKeys).map fun key => if shardOf key = shard then weight key else 0).sum

/-- The largest of the first loads. -/
def makespan (load : Nat → ℚ) : Nat → ℚ
  | 0 => 0
  | shards + 1 => max (makespan load shards) (load shards)

def shardIn (assignment : Dict κ Nat) (key : κ) : Nat := (assignment.get? key).getD 0

structure BalancedPartition (weight : κ → ℚ) (sourceKeys : List κ) (numShards : Nat)
    (assignment : Dict κ Nat) : Prop where
  nodup : assignment.keys.Nodup
  keys : ∀ key, key ∈ assignment.keys ↔ key ∈ sourceKeys
  inRange : ∀ entry ∈ assignment, entry.2 < numShards
  filled : numShards ≤ (Dict.sortedSet sourceKeys).length →
    ∀ shard < numShards, ∃ key ∈ sourceKeys, assignment.get? key = some shard
  level : sourceKeys ≠ [] → ∀ largest, (∀ key ∈ sourceKeys, weight key ≤ largest) →
    ∀ heavy < numShards, ∀ light < numShards,
      shardLoad weight sourceKeys (shardIn assignment) heavy ≤
        shardLoad weight sourceKeys (shardIn assignment) light + largest
  short : ∀ other : κ → Nat, (∀ key ∈ sourceKeys, other key < numShards) →
    makespan (shardLoad weight sourceKeys (shardIn assignment)) numShards ≤
      (4 / 3 - 1 / (3 * numShards)) * makespan (shardLoad weight sourceKeys other) numShards

variable {load : Nat → ℚ} {numShards : Nat}

theorem load_le_makespan {shard : Nat} (bound : shard < numShards) :
    load shard ≤ makespan load numShards := by
  induction numShards with
  | zero => exact absurd bound (Nat.not_lt_zero _)
  | succ shards induction =>
      rcases Nat.lt_succ_iff_lt_or_eq.mp bound with earlier | last
      · exact (induction earlier).trans (le_max_left _ _)
      · rw [last]
        exact le_max_right _ _

theorem makespan_le {limit : ℚ} (positive : 0 ≤ limit)
    (bounded : ∀ shard < numShards, load shard ≤ limit) : makespan load numShards ≤ limit := by
  induction numShards with
  | zero => exact positive
  | succ shards induction =>
      apply max_le
      · exact induction fun shard bound => bounded shard (Nat.lt_succ_of_lt bound)
      · exact bounded shards (Nat.lt_succ_self shards)

theorem makespan_nonneg (load : Nat → ℚ) (numShards : Nat) : 0 ≤ makespan load numShards := by
  induction numShards with
  | zero => exact le_refl 0
  | succ shards induction => exact induction.trans (le_max_left _ _)

theorem makespan_factor_nonneg (positive : 1 ≤ numShards) :
    (0 : ℚ) ≤ 4 / 3 - 1 / (3 * numShards) := by
  have atLeastOne : (1 : ℚ) ≤ numShards := by exact_mod_cast positive
  have small : 1 / (3 * (numShards : ℚ)) ≤ 1 / 3 :=
    one_div_le_one_div_of_le (by norm_num) (by linarith)
  linarith

section

variable {weight : κ → ℚ} {sourceKeys : List κ} {entries : Dict κ Nat}

theorem shardLoad_eq (perm : entries.keys.Perm (Dict.sortedSet sourceKeys)) (shardOf : κ → Nat) :
    shardLoad weight sourceKeys shardOf = entryLoad weight (fun entry => shardOf entry.1) entries := by
  funext shard
  rw [shardLoad, ← (perm.map _).sum_eq, entryLoad, Dict.keys, List.map_map]
  rfl

theorem shardLoad_shardIn (perm : entries.keys.Perm (Dict.sortedSet sourceKeys)) :
    shardLoad weight sourceKeys (shardIn entries) = entryLoad weight Prod.snd entries := by
  have nodup : entries.keys.Nodup := perm.nodup_iff.mpr (Dict.nodup_sortedSet sourceKeys)
  rw [shardLoad_eq perm]
  funext shard
  rw [entryLoad, entryLoad]
  congr 1
  apply List.map_congr_left
  intro entry member
  rw [shardIn, Dict.get?_of_mem nodup member, Option.getD_some]

theorem Assigned.balanced {numShards : Nat} {shards : Shards κ}
    (assigned : Assigned weight numShards shards) (positive : 1 ≤ numShards)
    (nonneg : ∀ key ∈ sourceKeys, 0 ≤ weight key)
    (run : shards.assignment.keys = orderedKeys weight (Dict.sortedSet sourceKeys)) :
    BalancedPartition weight sourceKeys numShards shards.assignment := by
  have perm : shards.assignment.keys.Perm (Dict.sortedSet sourceKeys) :=
    run ▸ orderedKeys_perm weight _
  have mem : ∀ key, key ∈ shards.assignment.keys ↔ key ∈ sourceKeys := by
    intro key
    rw [perm.mem_iff, Dict.mem_sortedSet]
  have source : ∀ entry ∈ shards.assignment, entry.1 ∈ sourceKeys := fun entry member =>
    (mem entry.1).mp (List.mem_map_of_mem member)
  have nodup : shards.assignment.keys.Nodup := perm.nodup_iff.mpr (Dict.nodup_sortedSet sourceKeys)
  have jobNonneg : ∀ job, 0 ≤ jobWeight weight shards.assignment job := fun job =>
    nonneg _ (source _ (List.getElem_mem job.isLt))
  have descending : Antitone (jobWeight weight shards.assignment) := by
    have order := orderedKeys_descending weight (Dict.sortedSet sourceKeys)
    rw [← run, Dict.keys, List.pairwise_map, List.pairwise_iff_getElem] at order
    intro first second before
    rcases Nat.lt_or_eq_of_le before with less | same
    · exact order first second first.isLt second.isLt less
    · rw [Fin.ext same]
  have ours : ∀ shard : Fin numShards,
      shardLoad weight sourceKeys (shardIn shards.assignment) shard =
        ListScheduling.load (jobWeight weight shards.assignment) (jobShard assigned.inRange) shard := by
    intro shard
    rw [shardLoad_shardIn perm, entryLoad_eq_load]
  refine ⟨nodup, mem, assigned.inRange, fun enough shard bound => ?filled,
    fun some largest bounded heavy heavyBound light lightBound => ?level,
    fun other otherRange => ?short⟩
  case filled =>
    have count : numShards ≤ shards.assignment.length := by
      rwa [← perm.length_eq, Dict.keys, List.length_map] at enough
    have used := assigned.filled (fun entry member => nonneg _ (source entry member)) count bound
    obtain ⟨entry, member, same⟩ := List.mem_map.mp used
    refine ⟨entry.1, source entry member, ?_⟩
    rw [← same]
    exact Dict.get?_of_mem nodup member
  case level =>
    obtain ⟨key, rest, cons⟩ := List.exists_cons_of_ne_nil some
    have first : key ∈ sourceKeys := cons ▸ List.mem_cons_self
    rw [ours ⟨heavy, heavyBound⟩, ours ⟨light, lightBound⟩]
    apply assigned.greedy.load_le jobNonneg
    · exact fun job => bounded _ (source _ (List.getElem_mem job.isLt))
    · exact (nonneg key first).trans (bounded key first)
  case short =>
    have place : ∀ entry ∈ shards.assignment, other entry.1 < numShards := fun entry member =>
      otherRange _ (source entry member)
    have theirs : ∀ shard : Fin numShards, ListScheduling.load
        (jobWeight weight shards.assignment) (jobShard place) shard ≤
          makespan (shardLoad weight sourceKeys other) numShards := by
      intro shard
      rw [← entryLoad_eq_load, ← shardLoad_eq perm]
      exact load_le_makespan shard.isLt
    have machines : Nonempty (Fin numShards) := ⟨⟨0, positive⟩⟩
    apply makespan_le (mul_nonneg (makespan_factor_nonneg positive) (makespan_nonneg _ _))
    intro shard bound
    rw [ours ⟨shard, bound⟩]
    have optimum := ListScheduling.Greedy.load_le_optimum descending jobNonneg assigned.greedy
      theirs ⟨shard, bound⟩
    rwa [Fintype.card_fin] at optimum

end

/-- The distinct keys, each with one shard in range, as evenly as longest first
scheduling has them, whatever the order and the repetitions of the input. -/
theorem shardAssignment_balanced {sourceKeys : List κ} {numShards : Nat}
    {weights : Option (Dict κ ℚ)} (positive : 1 ≤ numShards)
    (nonneg : ∀ key ∈ sourceKeys, 0 ≤ shardWeight weights key) :
    ∃ assignment, shardAssignment sourceKeys numShards weights = .ok assignment ∧
      BalancedPartition (shardWeight weights) sourceKeys numShards assignment ∧
      ∀ other : List κ, (∀ key, key ∈ other ↔ key ∈ sourceKeys) →
        shardAssignment other numShards weights = .ok assignment := by
  have result := shardAssignment_ok positive nonneg
  refine ⟨_, result, ?_, fun other same => (shardAssignment_congr same _ _).trans result⟩
  have ordered := orderedKeys_perm (shardWeight weights) (Dict.sortedSet sourceKeys)
  have nodup := ordered.nodup_iff.mpr (Dict.nodup_sortedSet sourceKeys)
  have run : Assigned (shardWeight weights) numShards _ ∧ _ := assignAll_assigned positive nodup
  exact run.1.balanced positive nonneg run.2

theorem shardAssignment_balanced_three :
    ∃ assignment, shardAssignment [2, 0, 1, 0] 2 (some [(0, 3), (1, 2), (2, 2)]) = .ok assignment ∧
      BalancedPartition (shardWeight (some [(0, 3), (1, 2), (2, 2)])) [2, 0, 1, 0] 2 assignment ∧
      ∀ other : List Nat, (∀ key, key ∈ other ↔ key ∈ [2, 0, 1, 0]) →
        shardAssignment other 2 (some [(0, 3), (1, 2), (2, 2)]) = .ok assignment :=
  shardAssignment_balanced (by decide) (by decide)

end CityPods.Records
