import CityPods.Records.TranscribePending

/-! # Shared work

The plan of what is pending: every episode once, the episodes of one recording
and one recipe on one shard, and their work counted once.
-/

namespace CityPods.Records

open Foundation Foundation.Stateful

/-! ## Keys -/

variable {α : Type} {separator : α} {first : List α}

theorem takeWhile_append_cons [DecidableEq α] (absent : separator ∉ first) (second : List α) :
    (first ++ separator :: second).takeWhile (· ≠ separator) = first := by
  rw [List.takeWhile_append_of_pos]
  · simp
  · intro other member
    simpa using fun same : other = separator => absent (same ▸ member)

theorem append_cons_inj [DecidableEq α]
    {second third fourth : List α} (firstPlain : separator ∉ first) (thirdPlain : separator ∉ third)
    (same : first ++ separator :: second = third ++ separator :: fourth) :
    first = third ∧ second = fourth := by
  have starts : first = third := by
    rw [← takeWhile_append_cons firstPlain second, same, takeWhile_append_cons thirdPlain]
  rw [starts] at same
  exact ⟨starts, (List.cons.inj (List.append_cancel_left same)).2⟩

theorem toList_slash (first second : String) :
    (first ++ "/" ++ second).toList = first.toList ++ '/' :: second.toList := by
  rw [String.toList_append, String.toList_append]
  simp

theorem episodeKey_inj {source uid otherSource otherUid : String} (plain : '/' ∉ source.toList)
    (otherPlain : '/' ∉ otherSource.toList)
    (same : episodeKey source uid = episodeKey otherSource otherUid) :
    source = otherSource ∧ uid = otherUid := by
  have chars := congrArg String.toList same
  rw [episodeKey, episodeKey, toList_slash, toList_slash] at chars
  have parts := append_cons_inj plain otherPlain chars
  exact ⟨String.toList_injective parts.1, String.toList_injective parts.2⟩

/-- What no two pending episodes share, and what their keys are made of. -/
structure Plain (pending : List PendingEpisode) : Prop where
  source : ∀ episode ∈ pending, '/' ∉ episode.source.toList
  recipe : ∀ episode ∈ pending, '/' ∉ episode.recipe.toList
  nonneg : ∀ episode ∈ pending, 0 ≤ episode.weight
  distinct : (pending.map fun episode => (episode.source, episode.uid)).Nodup

def PendingEpisode.work (episode : PendingEpisode) : String × String :=
  (episode.uid, episode.recipe)

theorem workKey_inj {first second : PendingEpisode} (firstPlain : '/' ∉ first.recipe.toList)
    (secondPlain : '/' ∉ second.recipe.toList) (same : first.workKey = second.workKey) :
    first.work = second.work := by
  have chars := congrArg List.reverse (congrArg String.toList same)
  rw [PendingEpisode.workKey, PendingEpisode.workKey, toList_slash, toList_slash,
    List.reverse_append, List.reverse_append, List.reverse_cons, List.reverse_cons,
    List.append_assoc, List.append_assoc, List.singleton_append, List.singleton_append] at chars
  have parts := append_cons_inj (by simpa using firstPlain) (by simpa using secondPlain) chars
  have recipes := String.toList_injective (List.reverse_injective parts.1)
  have uids := String.toList_injective (List.reverse_injective parts.2)
  rw [PendingEpisode.work, PendingEpisode.work, recipes, uids]

section

variable {pending : List PendingEpisode}

theorem Plain.workKey_iff (plain : Plain pending) {first second : PendingEpisode}
    (firstMember : first ∈ pending) (secondMember : second ∈ pending) :
    first.workKey = second.workKey ↔ first.work = second.work := by
  constructor
  · exact workKey_inj (plain.recipe first firstMember) (plain.recipe second secondMember)
  · intro same
    have parts := Prod.mk.inj same
    rw [PendingEpisode.workKey, PendingEpisode.workKey, parts.1, parts.2]

theorem Plain.episodeKeys_nodup (plain : Plain pending) :
    (pending.map PendingEpisode.episodeKey).Nodup := by
  have distinct := plain.distinct
  rw [List.Nodup, List.pairwise_map] at distinct ⊢
  refine List.Pairwise.imp_of_mem ?_ distinct
  intro first second firstMember secondMember different same
  have parts := episodeKey_inj (plain.source first firstMember) (plain.source second secondMember) same
  exact different (Prod.ext parts.1 parts.2)

/-! ## Groups -/

theorem largest_nonneg {weights : List ℚ} (nonneg : ∀ weight ∈ weights, 0 ≤ weight) :
    0 ≤ largest weights := by
  rw [largest]
  cases found : weights.max? with
  | none => exact le_refl 0
  | some weight => exact nonneg weight (List.max?_mem found)

theorem largestWeight_nonneg {members : List PendingEpisode}
    (nonneg : ∀ member ∈ members, 0 ≤ member.weight) : 0 ≤ largestWeight members := by
  apply largest_nonneg
  intro weight inside
  obtain ⟨member, named, same⟩ := List.mem_map.mp inside
  rw [← same]
  exact nonneg member named

def groups (pending : List PendingEpisode) : Dict String (List PendingEpisode) :=
  Dict.groupOn PendingEpisode.workKey pending

variable {group : String × List PendingEpisode}

theorem members_eq (member : group ∈ groups pending) :
    group.2 = pending.filter fun episode => episode.workKey = group.1 := by
  have found := Dict.getD_groupOn PendingEpisode.workKey pending group.1
  have stored : Dict.get? (groups pending) group.1 = some group.2 :=
    Dict.get?_of_mem (Dict.nodup_keys_groupOn _ pending) member
  rw [groups] at stored
  rwa [stored, Option.getD_some] at found

variable {episode : PendingEpisode}

theorem members_subset (member : group ∈ groups pending)
    (inside : episode ∈ group.2) : episode ∈ pending := by
  rw [members_eq member] at inside
  exact List.mem_of_mem_filter inside

theorem exists_group (member : episode ∈ pending) :
    ∃ group ∈ groups pending, group.1 = episode.workKey ∧ episode ∈ group.2 := by
  have inside := (Dict.grouped_groupOn_perm PendingEpisode.workKey pending).mem_iff.mpr member
  obtain ⟨group, named, within⟩ := List.mem_flatMap.mp inside
  exact ⟨group, named, ((Dict.mem_groupOn _ named).2 episode within).symm, within⟩

variable {numShards : Nat}

theorem Plain.assigned (plain : Plain pending) (positive : 1 ≤ numShards) :
    ∃ assignment, shardAssignment (groups pending).keys numShards
        (some ((groups pending).map fun group => (group.1, largestWeight group.2))) = .ok assignment ∧
      ∀ group ∈ groups pending, shardIn assignment group.1 < numShards := by
  have nonneg : ∀ key ∈ (groups pending).keys, 0 ≤ shardWeight
      (some ((groups pending).map fun group => (group.1, largestWeight group.2))) key := by
    intro key _
    rw [shardWeight]
    cases found : Dict.get? _ key with
    | none => decide
    | some weight =>
        obtain ⟨group, member, same⟩ := List.mem_map.mp (Dict.get?_eq_some_mem found)
        rw [Option.getD_some, ← (Prod.mk.inj same).2]
        exact largestWeight_nonneg fun episode inside =>
          plain.nonneg episode (members_subset member inside)
  obtain ⟨assignment, ran, balanced, _⟩ := shardAssignment_balanced positive nonneg
  refine ⟨assignment, ran, fun group member => ?_⟩
  have key := (balanced.keys group.1).mpr (List.mem_map_of_mem member)
  obtain ⟨shard, found⟩ := Option.isSome_iff_exists.mp (Dict.get?_isSome_iff_mem_keys.mpr key)
  rw [shardIn, found, Option.getD_some]
  exact balanced.inRange _ (Dict.get?_eq_some_mem found)

/-! ## Planned episodes -/

theorem planGroup_keys (assignment : Dict String Nat) (group : String × List PendingEpisode) :
    ((planGroup assignment group).map Prod.fst).Perm
      (group.2.map PendingEpisode.episodeKey) := by
  have keys : (planGroup assignment group).map Prod.fst = (sortedMembers group.2).map Prod.fst := by
    rw [planGroup, List.map_map, ← List.zipIdx_map_fst 0 (sortedMembers group.2), List.map_map,
      List.zipIdx_map_fst]
    rfl
  rw [keys, sortedMembers]
  refine ((List.perm_insertionSort _ _).map Prod.fst).trans ?_
  rw [List.map_map]
  exact .refl _

theorem planGroup_owner {assignment : Dict String Nat}
    {entry : String × Nat × ℚ} (member : entry ∈ planGroup assignment group) :
    entry.2.1 = shardIn assignment group.1 := by
  obtain ⟨indexed, _, same⟩ := List.mem_map.mp member
  rw [← same]

theorem planGroup_sum (assignment : Dict String Nat) (some : group.2 ≠ []) :
    ((planGroup assignment group).map fun entry => entry.2.2).sum = largestWeight group.2 := by
  have sorted : sortedMembers group.2 ≠ [] := by
    intro none
    have length := (List.perm_insertionSort (fun first second : String × ℚ =>
      toLex first ≤ toLex second) (group.2.map fun member =>
        (member.episodeKey, member.weight))).length_eq
    rw [sortedMembers] at none
    rw [none, List.length_nil, List.length_map] at length
    exact some (List.length_eq_zero_iff.mp length.symm)
  obtain ⟨head, rest, cons⟩ := List.exists_cons_of_ne_nil sorted
  rw [planGroup, cons, List.zipIdx_cons, List.map_map, List.map_cons, List.sum_cons]
  have others : ((rest.zipIdx (0 + 1)).map ((fun entry : String × Nat × ℚ => entry.2.2) ∘
      fun indexed => (indexed.1.1, shardIn assignment group.1,
        if indexed.2 = 0 then largestWeight group.2 else 0))).sum = 0 := by
    apply List.sum_eq_zero
    intro weight inside
    obtain ⟨indexed, member, same⟩ := List.mem_map.mp inside
    have later := List.le_snd_of_mem_zipIdx member
    rw [← same]
    exact if_neg (by omega)
  rw [others, add_zero]
  rfl

def plannedEpisodes (assignment : Dict String Nat) (pending : List PendingEpisode) :
    List (String × Nat × ℚ) :=
  (groups pending).sortKeys.flatMap (planGroup assignment)

theorem plannedEpisodes_keys (assignment : Dict String Nat) (pending : List PendingEpisode) :
    ((plannedEpisodes assignment pending).map Prod.fst).Perm (pending.map PendingEpisode.episodeKey) := by
  rw [plannedEpisodes, List.map_flatMap]
  refine ((Dict.sortKeys_perm (groups pending)).flatMap fun group _ =>
    planGroup_keys assignment group).trans ?_
  have whole := (Dict.grouped_groupOn_perm PendingEpisode.workKey pending).map
    PendingEpisode.episodeKey
  rwa [Dict.grouped, List.map_flatMap] at whole

theorem exists_plannedEpisodes (assignment : Dict String Nat) (member : episode ∈ pending) :
    ∃ weight, (episode.episodeKey, shardIn assignment episode.workKey, weight) ∈
      plannedEpisodes assignment pending := by
  obtain ⟨group, named, key, inside⟩ := exists_group member
  have within := (planGroup_keys assignment group).mem_iff.mpr
    (List.mem_map_of_mem (f := PendingEpisode.episodeKey) inside)
  obtain ⟨⟨found, owner, weight⟩, listed, same⟩ := List.mem_map.mp within
  refine ⟨weight, List.mem_flatMap.mpr ⟨group, (Dict.sortKeys_perm _).mem_iff.mpr named, ?_⟩⟩
  have owned := planGroup_owner listed
  rw [← key, ← owned, ← show found = episode.episodeKey from same]
  exact listed

theorem plannedEpisodes_sum (assignment : Dict String Nat) (pending : List PendingEpisode) :
    ((plannedEpisodes assignment pending).map fun entry => entry.2.2).sum =
      ((groups pending).map fun group => largestWeight group.2).sum := by
  rw [plannedEpisodes, List.map_flatMap, List.flatMap_def, List.sum_flatten, List.map_map]
  rw [← ((Dict.sortKeys_perm (groups pending)).map fun group => largestWeight group.2).sum_eq]
  congr 1
  apply List.map_congr_left
  intro group member
  have named : group ∈ groups pending := (Dict.sortKeys_perm _).mem_iff.mp member
  exact planGroup_sum assignment (Dict.mem_groupOn _ named).1

theorem Plain.groups_keys (plain : Plain pending) :
    (groups pending).keys.Perm
      ((pending.map PendingEpisode.work).dedup.map fun work => work.1 ++ "/" ++ work.2) := by
  have distinct : ((pending.map PendingEpisode.work).dedup.map
      fun work => work.1 ++ "/" ++ work.2).Nodup := by
    apply (List.nodup_dedup _).map_on
    intro first firstMember second secondMember same
    obtain ⟨episode, inside, work⟩ := List.mem_map.mp (List.mem_dedup.mp firstMember)
    obtain ⟨other, otherInside, otherWork⟩ := List.mem_map.mp (List.mem_dedup.mp secondMember)
    rw [← work, ← otherWork] at same ⊢
    exact (plain.workKey_iff inside otherInside).mp same
  have keyed : (groups pending).keys.Nodup := Dict.nodup_keys_groupOn _ pending
  rw [List.perm_ext_iff_of_nodup keyed distinct]
  intro key
  constructor
  · intro member
    obtain ⟨group, named, same⟩ := List.mem_map.mp member
    have shape := Dict.mem_groupOn _ named
    obtain ⟨episode, rest, cons⟩ := List.exists_cons_of_ne_nil shape.1
    have inside : episode ∈ group.2 := cons ▸ List.mem_cons_self
    rw [List.mem_map]
    refine ⟨episode.work, List.mem_dedup.mpr (List.mem_map_of_mem (members_subset named inside)), ?_⟩
    rw [← same, ← shape.2 episode inside]
    rfl
  · intro member
    obtain ⟨work, inside, same⟩ := List.mem_map.mp member
    obtain ⟨episode, listed, worked⟩ := List.mem_map.mp (List.mem_dedup.mp inside)
    obtain ⟨group, named, keyed, _⟩ := exists_group listed
    rw [← same, ← worked]
    exact List.mem_map.mpr ⟨group, named, keyed⟩

theorem Plain.groups_sum (plain : Plain pending) :
    ((groups pending).map fun group => largestWeight group.2).sum =
      ((pending.map PendingEpisode.work).dedup.map fun work =>
        largestWeight (pending.filter fun episode => episode.work = work)).sum := by
  have byKey : ((groups pending).map fun group => largestWeight group.2) =
      (groups pending).keys.map fun key =>
        largestWeight (pending.filter fun episode => episode.workKey = key) := by
    rw [Dict.keys, List.map_map]
    apply List.map_congr_left
    intro group member
    rw [members_eq member]
    rfl
  rw [byKey, (plain.groups_keys.map _).sum_eq, List.map_map]
  congr 1
  apply List.map_congr_left
  intro work member
  obtain ⟨episode, inside, same⟩ := List.mem_map.mp (List.mem_dedup.mp member)
  rw [← same]
  refine congrArg largestWeight (List.filter_congr fun other listed => ?_)
  rw [decide_eq_decide]
  exact plain.workKey_iff listed inside

/-! ## The plan -/

structure PlansOnce (numShards : Nat) (pending : List PendingEpisode) (plan : ShardPlan) : Prop where
  distinct : plan.assignment.keys.Nodup
  once : plan.assignment.keys.Perm (pending.map PendingEpisode.episodeKey)
  weighed : plan.weights.keys = plan.assignment.keys
  inRange : ∀ entry ∈ plan.assignment, entry.2 < numShards
  together : ∀ first ∈ pending, ∀ second ∈ pending, first.work = second.work →
    plan.assignment.get? first.episodeKey = plan.assignment.get? second.episodeKey
  total : plan.weights.values.sum = ((pending.map PendingEpisode.work).dedup.map fun work =>
    largestWeight (pending.filter fun episode => episode.work = work)).sum

theorem Plain.planOf (plain : Plain pending) (positive : 1 ≤ numShards) :
    ∃ plan, planOf numShards pending = .ok plan ∧ PlansOnce numShards pending plan := by
  obtain ⟨owners, ran, inRange⟩ := plain.assigned positive
  have keys := plannedEpisodes_keys owners pending
  have nodup : ((plannedEpisodes owners pending).map Prod.fst).Nodup :=
    keys.nodup_iff.mpr plain.episodeKeys_nodup
  have listed {ν : Type} (value : String × Nat × ℚ → ν) :
      Dict.update [] ((plannedEpisodes owners pending).map fun entry => (entry.1, value entry)) =
        (plannedEpisodes owners pending).map fun entry => (entry.1, value entry) := by
    apply Dict.update_new
    rw [List.nil_append, Dict.keys, List.map_map]
    exact nodup
  refine ⟨⟨numShards, (plannedEpisodes owners pending).map fun entry => (entry.1, entry.2.1),
    (plannedEpisodes owners pending).map fun entry => (entry.1, entry.2.2)⟩, ?result, ?_⟩
  case result =>
    rw [← listed fun entry => entry.2.1, ← listed fun entry => entry.2.2, Records.planOf]
    simp only [groups] at ran
    simp only [ran]
    rfl
  have assigned : Dict.keys ((plannedEpisodes owners pending).map fun entry => (entry.1, entry.2.1)) =
      (plannedEpisodes owners pending).map Prod.fst := by
    rw [Dict.keys, List.map_map]
    rfl
  have owner {episode : PendingEpisode} (member : episode ∈ pending) :
      Dict.get? ((plannedEpisodes owners pending).map fun entry => (entry.1, entry.2.1))
        episode.episodeKey = some (shardIn owners episode.workKey) := by
    obtain ⟨weight, inside⟩ := exists_plannedEpisodes owners member
    exact Dict.get?_of_mem (assigned ▸ nodup) (List.mem_map.mpr ⟨_, inside, rfl⟩)
  refine ⟨assigned ▸ nodup, assigned ▸ keys, ?weighed, ?inRange, ?together, ?total⟩
  case weighed =>
    rw [assigned, Dict.keys, List.map_map]
    rfl
  case inRange =>
    intro entry member
    obtain ⟨found, inside, same⟩ := List.mem_map.mp member
    obtain ⟨group, named, within⟩ := List.mem_flatMap.mp inside
    rw [← same, planGroup_owner within]
    exact inRange group ((Dict.sortKeys_perm _).mem_iff.mp named)
  case together =>
    intro first firstMember second secondMember same
    rw [owner firstMember, owner secondMember,
      (plain.workKey_iff firstMember secondMember).mpr same]
  case total =>
    rw [Dict.values, List.map_map]
    exact (plannedEpisodes_sum owners pending).trans plain.groups_sum

end

/-! ## All sources -/

section

variable {ρ : Type} {planning : Planning ρ} {snapshot : Snapshot ρ}

theorem sourceCity_nodup (cities : List City) : (sourceCity cities).keys.Nodup := by
  have empty : (Dict.keys ([] : Dict String City)).Nodup := List.nodup_nil
  exact Dict.nodup_keys_update empty _

theorem sourceCity_key {cities : List City} {source : String × City}
    (member : source ∈ sourceCity cities) : '/' ∉ source.1.toList := by
  rcases Dict.mem_update member with absent | listed
  · exact absurd absent List.not_mem_nil
  · obtain ⟨city, _, same⟩ := List.mem_map.mp listed
    rw [← same]
    exact slash_notMem_sourceKey city

variable {sources : Dict String City}

theorem allPending_ok
    (each : ∀ source ∈ sources, ∃ pending, pendingOf planning snapshot source = .ok pending ∧
      IsPendingOf planning snapshot source pending) :
    ∃ parts, allPending planning snapshot sources = .ok parts.flatten ∧
      List.Forall₂ (IsPendingOf planning snapshot) sources parts := by
  suffices read : ∃ parts, sources.mapM (pendingOf planning snapshot) = .ok parts ∧
      List.Forall₂ (IsPendingOf planning snapshot) sources parts by
    obtain ⟨parts, ran, held⟩ := read
    refine ⟨parts, ?_, held⟩
    rw [allPending, ran]
    rfl
  induction sources with
  | nil => exact ⟨[], rfl, .nil⟩
  | cons source rest induction =>
      obtain ⟨pending, ran, held⟩ := each source List.mem_cons_self
      obtain ⟨parts, others, later⟩ :=
        induction fun other inside => each other (List.mem_cons_of_mem _ inside)
      refine ⟨pending :: parts, ?_, .cons held later⟩
      rw [List.mapM_cons, ran, others]
      rfl

theorem plain_flatten {parts : List (List PendingEpisode)}
    (held : List.Forall₂ (IsPendingOf planning snapshot) sources parts)
    (nodup : sources.keys.Nodup) (keys : ∀ source ∈ sources, '/' ∉ source.1.toList) :
    Plain parts.flatten ∧ ∀ episode ∈ parts.flatten, episode.source ∈ sources.keys := by
  induction held with
  | nil =>
      exact ⟨⟨fun _ absent => absurd absent List.not_mem_nil,
        fun _ absent => absurd absent List.not_mem_nil,
        fun _ absent => absurd absent List.not_mem_nil, List.nodup_nil⟩,
        fun _ absent => absurd absent List.not_mem_nil⟩
  | @cons source pending sources parts first _ induction =>
      have fresh := List.nodup_cons.mp nodup
      have later := induction fresh.2 fun other inside => keys other (List.mem_cons_of_mem _ inside)
      have own : ∀ episode ∈ pending, episode.source = source.1 := first.source
      refine ⟨⟨?source, ?recipe, ?nonneg, ?distinct⟩, ?keys⟩
      case source =>
        intro episode member
        rcases List.mem_append.mp member with here | there
        · rw [own episode here]
          exact keys source List.mem_cons_self
        · exact later.1.source episode there
      case recipe =>
        intro episode member
        exact (List.mem_append.mp member).elim (first.plain episode) (later.1.recipe episode)
      case nonneg =>
        intro episode member
        exact (List.mem_append.mp member).elim (first.nonneg episode) (later.1.nonneg episode)
      case distinct =>
        rw [List.flatten_cons, List.map_append, List.nodup_append]
        refine ⟨?_, later.1.distinct, ?_⟩
        · have uids := first.distinct
          rw [List.Nodup, List.pairwise_map] at uids ⊢
          exact uids.imp fun different same => different (Prod.mk.inj same).2
        · intro one oneMember two twoMember same
          obtain ⟨episode, inside, named⟩ := List.mem_map.mp oneMember
          obtain ⟨other, otherInside, otherNamed⟩ := List.mem_map.mp twoMember
          rw [← named, ← otherNamed] at same
          have source := (Prod.mk.inj same).1
          rw [own episode inside] at source
          exact fresh.1 (source ▸ later.2 other otherInside)
      case keys =>
        intro episode member
        rcases List.mem_append.mp member with here | there
        · rw [own episode here]
          exact List.mem_cons_self
        · exact List.mem_cons_of_mem _ (later.2 episode there)

/-- The weights of the pending items of a source add up to the weight of the
source; and the plan of the pending items of all sources has each of them once,
with one shard and one weight for a recording and a recipe. -/
theorem transcribeWeights_agree (planning : Planning ρ) (snapshot : Snapshot ρ) :
    (∀ {σ : Type} (options : TranscribeOptions σ) (unknownLocalSeconds : ℚ)
      (records : Dict String ρ),
      (do
        let items ← pendingTranscribeItems options planning.recordToEpisode unknownLocalSeconds
          records
        pure (items.map Prod.snd).sum) =
      (do
        let work ← estimateTranscribeShardWork options planning.recordToEpisode
          unknownLocalSeconds records
        pure work.shardWeight)) ∧
    ∀ (cities : List City) (numShards : Nat), 1 ≤ numShards →
      (∀ source ∈ sourceCity cities, ∀ records, snapshot.archive source.1 = some records →
        ∃ items after, (pendingItems planning source.2 (transcriptStale planning source.2)
          records).run [] = .ok (items, after)) →
      ∃ parts plan, List.Forall₂ (IsPendingOf planning snapshot) (sourceCity cities) parts ∧
        createTranscribePlan planning snapshot cities numShards = .ok plan ∧
        PlansOnce numShards parts.flatten plan := by
  refine ⟨fun options unknownLocalSeconds records =>
    sum_pendingTranscribeItems options planning.recordToEpisode unknownLocalSeconds records, ?_⟩
  intro cities numShards positive returned
  obtain ⟨parts, ran, held⟩ := allPending_ok fun source member =>
    pendingOf_ok (returned source member)
  have plain := (plain_flatten held (sourceCity_nodup cities) fun source member =>
    sourceCity_key member).1
  obtain ⟨plan, planned, once⟩ := plain.planOf positive
  refine ⟨parts, plan, held, ?_, once⟩
  rw [createTranscribePlan, if_neg (by omega), ran]
  exact planned

end

def meetingEpisode : Episode where
  guid := "g"
  title := "t"
  body := none
  uid := some "u"
  hostedAudioUrl := some "a"
  audioKey := some "k"
  audioSpecHash := some "h"
  materializeError := none
  mediaAvailability := none
  transcriptSynced := false
  transcriptKey := none
  transcriptSpecHash := none
  transcriptPipelineVersion := none
  transcriptTimeoutAttempts := 0
  transcriptTimeoutLastAttempt := none
  sourceDurationSeconds := .none
  duration := .none
  servedDurationSeconds := .num 3600
  audioDurationServed := .none
  transcriptMedia := "m"

def feedView (sourceId : SourceId) : City where
  provider := "p"
  source := "s"
  sourceId := some sourceId
  podcastAuthor := "c"
  asrEnabled := true
  asrModel := "w"
  asrLanguage := "en"
  asrComputeType := "int8"
  asrBeamSize := 5

def feedViews : List City :=
  [feedView ⟨"a", by decide⟩, feedView ⟨"b", by decide⟩]

def meetingPlanning : Planning Episode where
  asrPipelineVersion := "1"
  localMaxDurationHours := 4
  now := 0
  fromisoformat _ := none
  recordToEpisode := .ok
  dumps spec := spec.media

def meetingSnapshot : Snapshot Episode where
  archive _ := some [("u", meetingEpisode)]
  distinct found := by
    cases found
    exact List.nodup_singleton _

theorem transcribeWeights_agree_views : ∃ parts plan,
    List.Forall₂ (IsPendingOf meetingPlanning meetingSnapshot) (sourceCity feedViews) parts ∧
      createTranscribePlan meetingPlanning meetingSnapshot feedViews 2 = .ok plan ∧
      PlansOnce 2 parts.flatten plan := by
  apply (transcribeWeights_agree meetingPlanning meetingSnapshot).2 feedViews 2 (by decide)
  intro source member records stored
  cases stored
  rcases Dict.mem_update member with absent | listed
  · cases absent
  · rcases List.mem_cons.mp listed with same | second
    · rw [same]
      exact ⟨_, _, rfl⟩
    · rw [List.mem_singleton.mp second]
      exact ⟨_, _, rfl⟩

end CityPods.Records
