import CityPods.Foundation.Dict
import CityPods.Foundation.ListScheduling
import Mathlib.Data.List.MinMax
import Mathlib.Data.Prod.Lex

/-! # Shard assignment

Sources are given to the shards of a workflow, the heaviest first, each one to
the shard that has the least to do by then.
-/

namespace CityPods.Records

open Foundation

variable {κ : Type} [LinearOrder κ]

inductive ShardError (κ : Type)
  /-- num_shards must be >= 1 -/
  | tooFewShards
  /-- the weight of this key must be >= 0 -/
  | negativeWeight (key : κ)

def shardWeight (weights : Option (Dict κ ℚ)) (key : κ) : ℚ :=
  match weights with
  | none => 1
  | some weights => (weights.get? key).getD 1

structure Shards (κ : Type) where
  loads : Nat → ℚ
  counts : Nat → Nat
  assignment : Dict κ Nat

/-- What the next shard is chosen by. -/
def shardRank (loads : Nat → ℚ) (counts : Nat → Nat) (shard : Nat) : ℚ ×ₗ Nat ×ₗ Nat :=
  toLex (loads shard, toLex (counts shard, shard))

def lightestShard (numShards : Nat) (shards : Shards κ) : Nat :=
  ((List.range numShards).argmin (shardRank shards.loads shards.counts)).getD 0

section

variable (weight : κ → ℚ) (numShards : Nat)

def assignNext (shards : Shards κ) (key : κ) : Shards κ :=
  let shard := lightestShard numShards shards
  { loads := Function.update shards.loads shard (shards.loads shard + weight key)
    counts := Function.update shards.counts shard (shards.counts shard + 1)
    assignment := shards.assignment.set key shard }

def assignAll (keys : List κ) : Shards κ :=
  keys.foldl (assignNext weight numShards) ⟨fun _ => 0, fun _ => 0, []⟩

/-- Heaviest first, and by key. -/
def orderedKeys (keys : List κ) : List κ :=
  keys.insertionSort fun first second =>
    toLex (-weight first, first) ≤ toLex (-weight second, second)

end

def shardAssignment (sourceKeys : List κ) (numShards : Nat) (weights : Option (Dict κ ℚ)) :
    Except (ShardError κ) (Dict κ Nat) :=
  if numShards < 1 then .error .tooFewShards
  else
    let distinct := Dict.sortedSet sourceKeys
    match distinct.find? fun key => shardWeight weights key < 0 with
    | some key => .error (.negativeWeight key)
    | none =>
        .ok (assignAll (shardWeight weights) numShards
          (orderedKeys (shardWeight weights) distinct)).assignment

def entryLoad (weight : κ → ℚ) (place : κ × Nat → Nat) (entries : Dict κ Nat) (shard : Nat) : ℚ :=
  (entries.map fun entry => if place entry = shard then weight entry.1 else 0).sum

def entryCount (entries : Dict κ Nat) (shard : Nat) : Nat :=
  (entries.map Prod.snd).count shard

/-- What a run of the assignment keeps true: each key went to the shard of least
rank at its time. -/
structure Assigned (weight : κ → ℚ) (numShards : Nat) (shards : Shards κ) : Prop where
  loads : ∀ shard, shards.loads shard = entryLoad weight Prod.snd shards.assignment shard
  counts : ∀ shard, shards.counts shard = entryCount shards.assignment shard
  least : ∀ before entry after, shards.assignment = before ++ entry :: after →
    entry.2 < numShards ∧ ∀ shard < numShards,
      shardRank (entryLoad weight Prod.snd before) (entryCount before) entry.2 ≤
        shardRank (entryLoad weight Prod.snd before) (entryCount before) shard

section

variable {weight : κ → ℚ} {numShards : Nat} {shards : Shards κ}

omit [LinearOrder κ] in
theorem lightestShard_least (positive : 1 ≤ numShards) (shards : Shards κ) :
    lightestShard numShards shards < numShards ∧ ∀ shard < numShards,
      shardRank shards.loads shards.counts (lightestShard numShards shards) ≤
        shardRank shards.loads shards.counts shard := by
  rw [lightestShard]
  cases found : (List.range numShards).argmin (shardRank shards.loads shards.counts) with
  | none =>
      have empty := List.argmin_eq_none.mp found
      rw [List.range_eq_nil] at empty
      omega
  | some shard =>
      refine ⟨List.mem_range.mp (List.argmin_mem found), fun other bound => ?_⟩
      exact List.le_of_mem_argmin (List.mem_range.mpr bound) found

omit [LinearOrder κ] in
theorem assigned_nil : Assigned weight numShards ⟨fun _ => 0, fun _ => 0, []⟩ :=
  ⟨fun _ => rfl, fun _ => rfl, fun before entry after split => by simp at split⟩

theorem Assigned.next (assigned : Assigned weight numShards shards) (positive : 1 ≤ numShards)
    {key : κ} (new : shards.assignment.get? key = none) :
    Assigned weight numShards (assignNext weight numShards shards key) := by
  have entries : (assignNext weight numShards shards key).assignment =
      shards.assignment ++ [(key, lightestShard numShards shards)] := Dict.set_new new _
  have chosen := lightestShard_least positive shards
  refine ⟨fun shard => ?_, fun shard => ?_, fun before entry after split => ?_⟩
  · rw [entries]
    simp only [assignNext, Function.update_apply, entryLoad, List.map_append, List.sum_append,
      List.map_cons, List.map_nil, List.sum_singleton]
    have old := assigned.loads shard
    rw [entryLoad] at old
    rw [← old]
    by_cases same : shard = lightestShard numShards shards
    · rw [if_pos same, if_pos same.symm, same]
    · rw [if_neg same, if_neg (Ne.symm same), add_zero]
  · rw [entries]
    simp only [assignNext, Function.update_apply, entryCount, List.map_append, List.map_cons,
      List.map_nil, List.count_append]
    have old := assigned.counts shard
    rw [entryCount] at old
    rw [← old]
    by_cases same : shard = lightestShard numShards shards
    · simp [same]
    · rw [if_neg same, List.count_singleton, if_neg (by simpa using Ne.symm same), add_zero]
  · rw [entries] at split
    rcases List.eq_nil_or_concat after with none | ⟨front, last, concat⟩
    · rw [none] at split
      have parts := List.append_inj' split rfl
      rw [← parts.1, ← List.head_eq_of_cons_eq parts.2]
      have loads : entryLoad weight Prod.snd shards.assignment = shards.loads :=
        funext fun shard => (assigned.loads shard).symm
      have counts : entryCount shards.assignment = shards.counts :=
        funext fun shard => (assigned.counts shard).symm
      rw [loads, counts]
      exact chosen
    · rw [concat, List.concat_eq_append, ← List.cons_append, ← List.append_assoc] at split
      exact assigned.least before entry front (List.append_inj' split rfl).1

theorem assignAll_append (keys : List κ) (key : κ) :
    assignAll weight numShards (keys ++ [key]) =
      assignNext weight numShards (assignAll weight numShards keys) key := by
  rw [assignAll, List.foldl_append]
  rfl

theorem assignAll_assigned (positive : 1 ≤ numShards) {keys : List κ} (nodup : keys.Nodup) :
    Assigned weight numShards (assignAll weight numShards keys) ∧
      (assignAll weight numShards keys).assignment.keys = keys := by
  induction keys using List.reverseRecOn with
  | nil => exact ⟨assigned_nil, rfl⟩
  | append_singleton front key induction =>
      have parts := List.nodup_append.mp nodup
      have before := induction parts.1
      have new : (assignAll weight numShards front).assignment.get? key = none := by
        rw [Dict.get?_eq_none_iff, before.2]
        intro member
        exact parts.2.2 key member key (List.mem_singleton_self key) rfl
      rw [assignAll_append]
      refine ⟨before.1.next positive new, ?_⟩
      have entries : (assignNext weight numShards (assignAll weight numShards front) key).assignment
          = (assignAll weight numShards front).assignment ++
            [(key, lightestShard numShards (assignAll weight numShards front))] :=
        Dict.set_new new _
      rw [entries, Dict.keys, List.map_append]
      exact congrArg (· ++ [key]) before.2

end

section

variable (weight : κ → ℚ)

theorem orderedKeys_perm (keys : List κ) : (orderedKeys weight keys).Perm keys :=
  List.perm_insertionSort _ keys

theorem orderedKeys_descending (keys : List κ) :
    (orderedKeys weight keys).Pairwise fun first second => weight second ≤ weight first := by
  have total : Std.Total fun first second : κ =>
      toLex (-weight first, first) ≤ toLex (-weight second, second) :=
    ⟨fun first second => le_total _ _⟩
  have transitive : IsTrans κ fun first second : κ =>
      toLex (-weight first, first) ≤ toLex (-weight second, second) :=
    ⟨fun first second third => le_trans⟩
  apply (List.pairwise_insertionSort _ keys).imp
  intro first second order
  rcases Prod.Lex.le_iff.mp order with less | ⟨same, _⟩
  · exact le_of_lt (neg_lt_neg_iff.mp less)
  · exact le_of_eq (neg_inj.mp same).symm

/-- The distinct keys in order depend on nothing but which keys there are. -/
theorem sortedSet_congr {keys other : List κ} (same : ∀ key, key ∈ other ↔ key ∈ keys) :
    Dict.sortedSet other = Dict.sortedSet keys := by
  have perm : (Dict.sortedSet other).Perm (Dict.sortedSet keys) := by
    rw [List.perm_ext_iff_of_nodup (Dict.nodup_sortedSet other) (Dict.nodup_sortedSet keys)]
    intro key
    rw [Dict.mem_sortedSet, Dict.mem_sortedSet, same]
  exact perm.eq_of_pairwise' (List.pairwise_insertionSort (· ≤ ·) _)
    (List.pairwise_insertionSort (· ≤ ·) _)

end

theorem shardAssignment_congr {sourceKeys other : List κ}
    (same : ∀ key, key ∈ other ↔ key ∈ sourceKeys) (numShards : Nat) (weights : Option (Dict κ ℚ)) :
    shardAssignment other numShards weights = shardAssignment sourceKeys numShards weights := by
  rw [shardAssignment, shardAssignment, sortedSet_congr same]

theorem shardAssignment_ok {sourceKeys : List κ} {numShards : Nat} {weights : Option (Dict κ ℚ)}
    (positive : 1 ≤ numShards) (nonneg : ∀ key ∈ sourceKeys, 0 ≤ shardWeight weights key) :
    shardAssignment sourceKeys numShards weights =
      .ok (assignAll (shardWeight weights) numShards
        (orderedKeys (shardWeight weights) (Dict.sortedSet sourceKeys))).assignment := by
  have none : ((Dict.sortedSet sourceKeys).find? fun key => shardWeight weights key < 0) = none := by
    rw [List.find?_eq_none]
    intro key member
    have weight := nonneg key (Dict.mem_sortedSet.mp member)
    simpa using weight
  rw [shardAssignment, if_neg (by omega)]
  simp only [none]

end CityPods.Records
