import CityPods.Foundation.Newest
import CityPods.Records.Durations

/-! # Retention by body

The archive of a shared source keeps the newest records of every body, and the
audio of the newest of those.
-/

namespace CityPods.Records

open Foundation

/-- How the names of bodies and the dates of records are read:
`body_key(canonical_body(name))` and `datetime.fromisoformat(text).timestamp()`. -/
structure Reading (Time : Type) where
  bodyKey : String → String
  timestamp : String → Option Time

/-! ## Ranking -/

section

variable {Item Time : Type} [LinearOrder Time]

/-- What items are ranked by: undated ones last. -/
def sortKey : Option Time → WithBot Time
  | none => ⊥
  | some time => time

def rankByBody (bodyOf : Item → String) (publishedOf : Item → Option Time) (items : List Item) :
    List (List Item) :=
  (Dict.groupOn bodyOf items).values.map (newest fun item => sortKey (publishedOf item))

end

/-! ## The archive -/

section

variable {Time : Type} [LinearOrder Time] (reading : Reading Time)

def bodyOf (record : Record) : String :=
  reading.bodyKey ((field record "body").asStr?.getD "")

/-- A record without a readable date is undated. -/
def recordTimestamp (record : Record) : Option Time :=
  (field record "published").asStr?.bind reading.timestamp

def mergeRecords (persisted fresh : Dict String Record) : Dict String Record :=
  persisted.update fresh

/-- Undated records are never aged out. -/
def survives (cutoff : Time) (record : Record) : Bool :=
  match recordTimestamp reading record with
  | none => true
  | some timestamp => decide (cutoff ≤ timestamp)

def withoutAudio (item : String × Record) : String × Record := (item.1, item.2.erase "audio")

def retainGroup (fullArtifactEpisodes metadataRetentionEpisodes : Nat) :
    Nat → List (String × Record) → Dict String Record → Dict String Record
  | _, [], retained => retained
  | rank, item :: rest, retained =>
      if metadataRetentionEpisodes ≤ rank then retained
      else
        let kept := if fullArtifactEpisodes ≤ rank then withoutAudio item else item
        retainGroup fullArtifactEpisodes metadataRetentionEpisodes (rank + 1) rest
          (retained.set kept.1 kept.2)

inductive RetentionError
  /-- require 0 < full_artifact_episodes <= metadata_retention_episodes -/
  | tiers
  deriving DecidableEq

def projectBodyRetainedArchive (cutoff : Time) (fullArtifactEpisodes metadataRetentionEpisodes : Nat)
    (persisted fresh : Dict String Record) : Except RetentionError (Dict String Record) :=
  if 0 < fullArtifactEpisodes ∧ fullArtifactEpisodes ≤ metadataRetentionEpisodes then
    let survivors := (mergeRecords persisted fresh).filter fun item => survives reading cutoff item.2
    let groups := rankByBody (fun item => bodyOf reading item.2)
      (fun item => recordTimestamp reading item.2) survivors
    .ok (groups.foldl (fun retained items =>
      retainGroup fullArtifactEpisodes metadataRetentionEpisodes 0 items retained) [])
  else .error .tiers

end

/-! ## One group -/

section

variable {full metadata rank : Nat}

/-- The first of the group as they are, the others in range without their audio. -/
def tiers (full metadata : Nat) (group : List (String × Record)) : Dict String Record :=
  group.take full ++ ((group.take metadata).drop full).map withoutAudio

theorem tiers_keys (group : List (String × Record)) (ordered : full ≤ metadata) :
    (tiers full metadata group).keys = (group.take metadata).map Prod.fst := by
  have same : (Prod.fst ∘ withoutAudio : String × Record → String) = Prod.fst := rfl
  have split : group.take full = (group.take metadata).take full := by
    rw [List.take_take, Nat.min_eq_left ordered]
  rw [tiers, Dict.keys, List.map_append, List.map_map, same, ← List.map_append, split,
    List.take_append_drop]

theorem retainGroup_eq (group : List (String × Record)) (retained : Dict String Record)
    (ordered : full ≤ metadata) (fresh : (Dict.keys (retained ++ group)).Nodup) :
    retainGroup full metadata rank group retained = retained ++ (group.take (full - rank) ++
      ((group.take (metadata - rank)).drop (full - rank)).map withoutAudio) := by
  induction group generalizing rank retained with
  | nil => simp [retainGroup]
  | cons item rest induction =>
      rw [retainGroup]
      by_cases past : metadata ≤ rank
      · have none : metadata - rank = 0 := by omega
        have early : full - rank = 0 := by omega
        rw [if_pos past, none, early]
        simp
      · rw [if_neg past]
        obtain ⟨left, steps⟩ : ∃ left, metadata - rank = left + 1 := ⟨metadata - rank - 1, by omega⟩
        have next : metadata - (rank + 1) = left := by omega
        have added : ∀ kept : String × Record, kept.1 = item.1 →
            retained.set kept.1 kept.2 = retained ++ [kept] ∧
              (Dict.keys ((retained ++ [kept]) ++ rest)).Nodup := by
          intro kept same
          have keys : Dict.keys ((retained ++ [kept]) ++ rest) = Dict.keys (retained ++ item :: rest) := by
            simp [Dict.keys, same]
          rw [keys]
          refine ⟨Dict.set_new (Dict.get?_eq_none_iff.mpr fun member => ?_) kept.2, fresh⟩
          rw [Dict.keys, List.map_append] at fresh
          exact (List.nodup_append.mp fresh).2.2 kept.1 member item.1 List.mem_cons_self same
        by_cases late : full ≤ rank
        · have early : full - rank = 0 := by omega
          have still : full - (rank + 1) = 0 := by omega
          obtain ⟨put, later⟩ := added (withoutAudio item) rfl
          rw [if_pos late]
          dsimp only
          rw [put, induction _ later, next, steps, early, still]
          simp
        · obtain ⟨room, places⟩ : ∃ room, full - rank = room + 1 := ⟨full - rank - 1, by omega⟩
          have still : full - (rank + 1) = room := by omega
          obtain ⟨put, later⟩ := added item rfl
          rw [if_neg late]
          dsimp only
          rw [put, induction _ later, next, steps, places, still]
          simp

theorem retainGroup_zero (group : List (String × Record)) (retained : Dict String Record)
    (ordered : full ≤ metadata) (fresh : (Dict.keys (retained ++ group)).Nodup) :
    retainGroup full metadata 0 group retained = retained ++ tiers full metadata group :=
  retainGroup_eq group retained ordered fresh

end

/-! ## What stays of a record without its audio -/

section

variable {Time : Type} [LinearOrder Time] (reading : Reading Time) (cutoff : Time)
  (item : String × Record)

omit [LinearOrder Time] in
@[simp] theorem bodyOf_withoutAudio : bodyOf reading (withoutAudio item).2 = bodyOf reading item.2 := by
  rw [bodyOf, bodyOf, field, field, withoutAudio, Dict.get?_erase_other _ (by decide)]

omit [LinearOrder Time] in
@[simp] theorem recordTimestamp_withoutAudio :
    recordTimestamp reading (withoutAudio item).2 = recordTimestamp reading item.2 := by
  rw [recordTimestamp, recordTimestamp, field, field, withoutAudio,
    Dict.get?_erase_other _ (by decide)]

@[simp] theorem survives_withoutAudio :
    survives reading cutoff (withoutAudio item).2 = survives reading cutoff item.2 := by
  rw [survives, survives, recordTimestamp_withoutAudio]

@[simp] theorem withoutAudio_withoutAudio : withoutAudio (withoutAudio item) = withoutAudio item := by
  rw [withoutAudio, withoutAudio, Dict.erase_of_none (Dict.get?_erase_same _ _)]

end

/-! ## All groups -/

section

variable {full metadata : Nat}

theorem tiers_keys_sublist (group : List (String × Record)) (ordered : full ≤ metadata) :
    (tiers full metadata group).keys.Sublist (Dict.keys group) := by
  rw [tiers_keys group ordered]
  exact (List.take_sublist metadata group).map Prod.fst

theorem foldl_retainGroup (groups : List (List (String × Record))) (retained : Dict String Record)
    (ordered : full ≤ metadata) (fresh : (Dict.keys (retained ++ groups.flatten)).Nodup) :
    groups.foldl (fun retained items => retainGroup full metadata 0 items retained) retained =
      retained ++ groups.flatMap (tiers full metadata) := by
  induction groups generalizing retained with
  | nil => exact (List.append_nil _).symm
  | cons group rest induction =>
      rw [List.flatten_cons, ← List.append_assoc] at fresh
      have here : (Dict.keys (retained ++ group)).Nodup := by
        rw [Dict.keys, List.map_append] at fresh
        exact (List.nodup_append.mp fresh).1
      have later : (Dict.keys ((retained ++ tiers full metadata group) ++ rest.flatten)).Nodup := by
        refine fresh.sublist ?_
        simp only [Dict.keys, List.map_append]
        refine List.Sublist.append (List.Sublist.append_left ?_ _) (List.Sublist.refl _)
        exact tiers_keys_sublist group ordered
      rw [List.foldl_cons, retainGroup_zero group retained ordered here, induction _ later,
        List.flatMap_cons, List.append_assoc]

end

section

variable {Time : Type} [LinearOrder Time] (reading : Reading Time) (cutoff : Time)
  (full metadata : Nat)

/-- The records that the age limit leaves. -/
def survivorsOf (records : Dict String Record) : Dict String Record :=
  records.filter fun item => survives reading cutoff item.2

def ofBody (body : String) (records : Dict String Record) : Dict String Record :=
  records.filter fun item => bodyOf reading item.2 = body

def rankingOf (records : Dict String Record) (body : String) : List (String × Record) :=
  newest (fun item => sortKey (recordTimestamp reading item.2))
    (ofBody reading body (survivorsOf reading cutoff records))

def bodiesOf (records : Dict String Record) : List String :=
  (Dict.groupOn (fun item : String × Record => bodyOf reading item.2)
    (survivorsOf reading cutoff records)).keys

def archiveOf (records : Dict String Record) : Dict String Record :=
  (bodiesOf reading cutoff records).flatMap fun body =>
    tiers full metadata (rankingOf reading cutoff records body)

end

section

variable {Time : Type} [LinearOrder Time] {reading : Reading Time} {cutoff : Time}
  {full metadata : Nat} {records : Dict String Record} {body : String}

theorem rankByBody_eq : rankByBody (fun item : String × Record => bodyOf reading item.2)
    (fun item => recordTimestamp reading item.2) (survivorsOf reading cutoff records) =
      (bodiesOf reading cutoff records).map (rankingOf reading cutoff records) := by
  rw [rankByBody, bodiesOf, Dict.values, Dict.keys, List.map_map, List.map_map]
  refine List.map_congr_left fun group member => ?_
  have found := Dict.get?_of_mem (Dict.nodup_keys_groupOn _ _) member
  have members := Dict.getD_groupOn (fun item : String × Record => bodyOf reading item.2)
    (survivorsOf reading cutoff records) group.1
  rw [found] at members
  show newest _ group.2 = newest _ (List.filter _ _)
  rw [← members]
  rfl

theorem nodup_bodiesOf : (bodiesOf reading cutoff records).Nodup := Dict.nodup_keys_groupOn _ _

variable {item : String × Record}

theorem mem_bodiesOf (member : item ∈ survivorsOf reading cutoff records) :
    bodyOf reading item.2 ∈ bodiesOf reading cutoff records := by
  rw [bodiesOf, ← Dict.get?_isSome_iff_mem_keys]
  have members := Dict.getD_groupOn (fun item : String × Record => bodyOf reading item.2)
    (survivorsOf reading cutoff records) (bodyOf reading item.2)
  cases found : (Dict.groupOn (fun item : String × Record => bodyOf reading item.2)
      (survivorsOf reading cutoff records)).get? (bodyOf reading item.2) with
  | some group => rfl
  | none =>
      rw [found] at members
      have inside : item ∈ (survivorsOf reading cutoff records).filter
          fun other => bodyOf reading other.2 = bodyOf reading item.2 :=
        List.mem_filter.mpr ⟨member, by simp⟩
      rw [← members] at inside
      cases inside

theorem projectBodyRetainedArchive_eq {persisted fresh : Dict String Record}
    (tiersValid : 0 < full ∧ full ≤ metadata) (nodup : (mergeRecords persisted fresh).keys.Nodup) :
    projectBodyRetainedArchive reading cutoff full metadata persisted fresh =
      .ok (archiveOf reading cutoff full metadata (mergeRecords persisted fresh)) := by
  rw [projectBodyRetainedArchive, if_pos tiersValid]
  refine congrArg Except.ok ?_
  have perm : (rankByBody (fun item : String × Record => bodyOf reading item.2)
      (fun item => recordTimestamp reading item.2)
      (survivorsOf reading cutoff (mergeRecords persisted fresh))).flatten.Perm
        (survivorsOf reading cutoff (mergeRecords persisted fresh)) := by
    refine List.Perm.trans ?_ (Dict.grouped_groupOn_perm
      (fun item : String × Record => bodyOf reading item.2) _)
    rw [rankByBody, Dict.values, List.map_map, ← List.flatMap_def]
    exact List.Perm.flatMap_left _ fun group _ => newest_perm
  have distinct : (Dict.keys ([] ++ (rankByBody (fun item : String × Record => bodyOf reading item.2)
      (fun item => recordTimestamp reading item.2)
      (survivorsOf reading cutoff (mergeRecords persisted fresh))).flatten)).Nodup := by
    rw [List.nil_append]
    exact (perm.map Prod.fst).nodup_iff.mpr (nodup.sublist (List.filter_sublist.map Prod.fst))
  refine (foldl_retainGroup _ [] tiersValid.2 distinct).trans ?_
  rw [List.nil_append, rankByBody_eq, List.flatMap_map]
  rfl

/-! ## The archive of one body -/

theorem mem_rankingOf : item ∈ rankingOf reading cutoff records body ↔
    item ∈ records ∧ survives reading cutoff item.2 = true ∧ bodyOf reading item.2 = body := by
  rw [rankingOf, mem_newest, ofBody, survivorsOf, List.mem_filter, List.mem_filter, and_assoc,
    decide_eq_true_iff]

variable {kept : String × Record}

/-- Each retained record is one of the ranked ones, perhaps without its audio. -/
theorem mem_tiers {group : List (String × Record)} (member : kept ∈ tiers full metadata group) :
    ∃ item ∈ group, kept = item ∨ kept = withoutAudio item := by
  rcases List.mem_append.mp member with first | later
  · exact ⟨kept, List.mem_of_mem_take first, .inl rfl⟩
  · obtain ⟨item, inside, rfl⟩ := List.mem_map.mp later
    exact ⟨item, List.mem_of_mem_take (List.mem_of_mem_drop inside), .inr rfl⟩

theorem mem_archiveOf (member : kept ∈ archiveOf reading cutoff full metadata records) :
    survives reading cutoff kept.2 = true ∧
      ∃ item ∈ records, kept = item ∨ kept = withoutAudio item := by
  obtain ⟨body, _, inside⟩ := List.mem_flatMap.mp member
  obtain ⟨item, ranked, same⟩ := mem_tiers inside
  obtain ⟨listed, survived, _⟩ := mem_rankingOf.mp ranked
  refine ⟨?_, item, listed, same⟩
  rcases same with rfl | rfl
  · exact survived
  · rwa [survives_withoutAudio]

theorem flatMap_single {bodies : List String} (nodup : bodies.Nodup)
    (group : String → Dict String Record) (others : ∀ other ∈ bodies, other ≠ body → group other = [])
    (absent : body ∉ bodies → group body = []) : bodies.flatMap group = group body := by
  induction bodies with
  | nil => exact (absent List.not_mem_nil).symm
  | cons head rest induction =>
      obtain ⟨fresh, later⟩ := List.nodup_cons.mp nodup
      rw [List.flatMap_cons]
      by_cases here : head = body
      · subst here
        have nothing : rest.flatMap group = [] := List.flatMap_eq_nil_iff.mpr fun other member =>
          others other (List.mem_cons_of_mem _ member) fun same => fresh (same ▸ member)
        rw [nothing, List.append_nil]
      · rw [others head List.mem_cons_self here, List.nil_append]
        refine induction later (fun other member => others other (List.mem_cons_of_mem _ member))
          fun outside => absent ?_
        rw [List.mem_cons, not_or]
        exact ⟨Ne.symm here, outside⟩

theorem ofBody_archiveOf : ofBody reading body (archiveOf reading cutoff full metadata records) =
    tiers full metadata (rankingOf reading cutoff records body) := by
  have all : ∀ other, ∀ kept ∈ tiers full metadata (rankingOf reading cutoff records other),
      bodyOf reading kept.2 = other := by
    intro other kept member
    obtain ⟨item, ranked, same⟩ := mem_tiers member
    rcases same with rfl | rfl
    · exact (mem_rankingOf.mp ranked).2.2
    · rw [bodyOf_withoutAudio]
      exact (mem_rankingOf.mp ranked).2.2
  rw [ofBody, archiveOf, List.filter_flatMap]
  rw [@flatMap_single body _ nodup_bodiesOf]
  · exact List.filter_eq_self.mpr fun kept member => decide_eq_true (all body kept member)
  · intro other _ different
    refine List.filter_eq_nil_iff.mpr fun kept member same => different ?_
    rw [← all other kept member, of_decide_eq_true same]
  · intro outside
    have nobody : rankingOf reading cutoff records body = [] := by
      refine List.eq_nil_iff_forall_not_mem.mpr fun item ranked => outside ?_
      obtain ⟨listed, survived, rfl⟩ := mem_rankingOf.mp ranked
      exact mem_bodiesOf (List.mem_filter.mpr ⟨listed, survived⟩)
    rw [nobody]
    simp [tiers]

theorem rankingOf_keys_nodup (nodup : records.keys.Nodup) :
    (Dict.keys (rankingOf reading cutoff records body)).Nodup := by
  refine ((@newest_perm _ _ _ _ (ofBody reading body (survivorsOf reading cutoff records))).map
    Prod.fst).nodup_iff.mpr ?_
  exact nodup.sublist ((List.filter_sublist.trans List.filter_sublist).map Prod.fst)

theorem archiveOf_keys_nodup (ordered : full ≤ metadata) (nodup : records.keys.Nodup) :
    (archiveOf reading cutoff full metadata records).keys.Nodup := by
  rw [archiveOf, Dict.keys, List.map_flatMap, List.nodup_flatMap]
  refine ⟨fun body _ => ?_, nodup_bodiesOf.imp_of_mem fun {first second} _ _ different => ?_⟩
  · exact (rankingOf_keys_nodup nodup).sublist (tiers_keys_sublist _ ordered)
  · intro uid inFirst inSecond
    obtain ⟨left, leftRanked, rfl⟩ := List.mem_map.mp
      ((tiers_keys_sublist _ ordered).subset inFirst)
    obtain ⟨right, rightRanked, same⟩ := List.mem_map.mp
      ((tiers_keys_sublist _ ordered).subset inSecond)
    obtain ⟨leftListed, _, leftBody⟩ := mem_rankingOf.mp leftRanked
    obtain ⟨rightListed, _, rightBody⟩ := mem_rankingOf.mp rightRanked
    have found := Dict.get?_of_mem nodup leftListed
    rw [← same, Dict.get?_of_mem nodup rightListed] at found
    exact different (leftBody.symm.trans ((congrArg _ (Option.some.inj found).symm).trans rightBody))

def SameRecords (first second : Dict String Record) : Prop := ∀ uid, first.get? uid = second.get? uid

omit [LinearOrder Time] in
theorem sameRecords_of_bodies {first second : Dict String Record} (nodup : first.keys.Nodup)
    (also : second.keys.Nodup)
    (same : ∀ body, ofBody reading body first = ofBody reading body second) :
    SameRecords first second := by
  intro uid
  have listed : ∀ record, (uid, record) ∈ first ↔ (uid, record) ∈ second := by
    intro record
    have inBody : ∀ records : Dict String Record,
        (uid, record) ∈ ofBody reading (bodyOf reading record) records ↔ (uid, record) ∈ records := by
      intro records
      rw [ofBody, List.mem_filter, decide_eq_true_iff]
      exact and_iff_left rfl
    rw [← inBody first, ← inBody second, same]
  refine Option.ext fun record => ?_
  constructor
  · intro found
    exact Dict.get?_of_mem also ((listed record).mp (Dict.get?_eq_some_mem found))
  · intro found
    exact Dict.get?_of_mem nodup ((listed record).mpr (Dict.get?_eq_some_mem found))

end

end CityPods.Records
