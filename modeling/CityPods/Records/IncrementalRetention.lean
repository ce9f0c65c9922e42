import CityPods.Records.Retention

/-! # Persisting a part first

The archive that is retained from some of the fresh records, and then from all of
them, against the archive that is retained at once.
-/

namespace CityPods.Records

open Foundation

section

variable {Time : Type} [LinearOrder Time] {reading : Reading Time} {cutoff : Time}
  {full metadata : Nat} {records : Dict String Record} {body : String}

theorem tiers_of_take {group other : List (String × Record)}
    (first : group.take full = other.take full)
    (later : (group.take metadata).map withoutAudio = (other.take metadata).map withoutAudio) :
    tiers full metadata group = tiers full metadata other := by
  rw [tiers, tiers, first, List.map_drop, List.map_drop, later]

/-- What does not depend on the audio is the same of the first of a group and of
the retained ones. -/
theorem tiers_map {α : Type} (view : String × Record → α) (group : List (String × Record))
    (ordered : full ≤ metadata) (blind : ∀ item, view (withoutAudio item) = view item) :
    (tiers full metadata group).map view = (group.take metadata).map view := by
  have split : group.take full = (group.take metadata).take full := by
    rw [List.take_take, Nat.min_eq_left ordered]
  have same : view ∘ withoutAudio = view := funext blind
  rw [tiers, List.map_append, List.map_map, same, split, ← List.map_append, List.take_append_drop]

theorem newest_tiers (group : List (String × Record)) (ordered : full ≤ metadata)
    (sorted : group.Pairwise (NoOlder fun item => sortKey (recordTimestamp reading item.2))) :
    newest (fun item => sortKey (recordTimestamp reading item.2)) (tiers full metadata group) =
      tiers full metadata group := by
  have ranked : ((tiers full metadata group).map fun item =>
      sortKey (recordTimestamp reading item.2)).Pairwise fun first second => second ≤ first := by
    rw [tiers_map _ group ordered fun item => by rw [recordTimestamp_withoutAudio]]
    exact List.pairwise_map.mpr (sorted.sublist (List.take_sublist metadata group))
  rw [List.pairwise_map] at ranked
  exact newest_of_pairwise ranked

theorem tiers_tiers (group : List (String × Record)) (ordered : full ≤ metadata) :
    tiers full metadata (tiers full metadata group) = tiers full metadata group := by
  have few : (tiers full metadata group).length ≤ metadata := by
    have lengths := congrArg List.length (tiers_map (fun _ => ()) group ordered fun _ => rfl)
    rw [List.length_map, List.length_map, List.length_take] at lengths
    omega
  refine tiers_of_take ?_ ?_
  · by_cases long : full ≤ group.length
    · rw [tiers, List.take_append_of_le_length, List.take_take, Nat.min_self]
      rw [List.length_take]
      omega
    · have none : (group.take metadata).drop full = [] :=
        List.drop_eq_nil_iff.mpr (by rw [List.length_take]; omega)
      rw [tiers, none, List.map_nil, List.append_nil, List.take_take, Nat.min_self]
  · rw [List.take_of_length_le few]
    exact tiers_map withoutAudio group ordered withoutAudio_withoutAudio

/-- Retaining a retained archive changes nothing of a body. -/
theorem archiveOf_archiveOf (ordered : full ≤ metadata) :
    ofBody reading body (archiveOf reading cutoff full metadata
      (archiveOf reading cutoff full metadata records)) =
      ofBody reading body (archiveOf reading cutoff full metadata records) := by
  have all : survivorsOf reading cutoff (archiveOf reading cutoff full metadata records) =
      archiveOf reading cutoff full metadata records :=
    List.filter_eq_self.mpr fun item member => (mem_archiveOf member).1
  have sorted : (rankingOf reading cutoff records body).Pairwise
      (NoOlder fun item => sortKey (recordTimestamp reading item.2)) := newest_pairwise
  rw [ofBody_archiveOf, rankingOf, all, ofBody_archiveOf, newest_tiers _ ordered sorted,
    tiers_tiers _ ordered]

theorem archiveOf_ofBody : archiveOf reading cutoff full metadata (ofBody reading body records) =
    ofBody reading body (archiveOf reading cutoff full metadata records) := by
  have all : ofBody reading body (archiveOf reading cutoff full metadata (ofBody reading body records)) =
      archiveOf reading cutoff full metadata (ofBody reading body records) := by
    refine List.filter_eq_self.mpr fun kept member => decide_eq_true ?_
    obtain ⟨_, item, listed, same⟩ := mem_archiveOf member
    have inBody : bodyOf reading item.2 = body := of_decide_eq_true (List.mem_filter.mp listed).2
    rcases same with rfl | rfl
    · exact inBody
    · rw [bodyOf_withoutAudio, inBody]
  have alone : rankingOf reading cutoff (ofBody reading body records) body =
      rankingOf reading cutoff records body := by
    rw [rankingOf, rankingOf]
    refine congrArg _ ?_
    unfold ofBody survivorsOf
    rw [List.filter_filter, List.filter_filter, List.filter_filter]
    refine List.filter_congr fun item _ => ?_
    cases survives reading cutoff item.2 <;> simp
  rw [← all, ofBody_archiveOf, ofBody_archiveOf, alone]

end

/-! ## Bodies and dates by uid -/

section

variable {Time : Type} [LinearOrder Time] (reading : Reading Time) (cutoff : Time) (body : String)
  (whole : Dict String Record)

/-- The records say the same about bodies and dates as the whole. -/
def Agrees (records : Dict String Record) : Prop :=
  ∀ item ∈ records, ∃ record, whole.get? item.1 = some record ∧
    bodyOf reading record = bodyOf reading item.2 ∧
    recordTimestamp reading record = recordTimestamp reading item.2

def uidKey (uid : String) : WithBot Time :=
  sortKey ((whole.get? uid).bind (recordTimestamp reading))

def inBody (uid : String) : Bool :=
  (whole.get? uid).any fun record => survives reading cutoff record && bodyOf reading record = body

end

section

variable {Time : Type} [LinearOrder Time] {reading : Reading Time} {cutoff : Time} {body : String}
  {whole records fresh : Dict String Record} {full metadata : Nat}

theorem Agrees.keys (agrees : Agrees reading whole records) :
    Dict.keys (ofBody reading body (survivorsOf reading cutoff records)) =
      records.keys.filter (inBody reading cutoff body whole) := by
  rw [Dict.keys, Dict.keys, ofBody, survivorsOf, List.filter_filter, List.filter_map]
  refine congrArg _ (List.filter_congr fun item member => ?_)
  obtain ⟨record, found, sameBody, sameTime⟩ := agrees item member
  show _ = inBody reading cutoff body whole item.1
  rw [inBody, found, Option.any_some, survives, survives, sameBody, sameTime, Bool.and_comm]

omit [LinearOrder Time] in
theorem Agrees.uidKey (agrees : Agrees reading whole records) {item : String × Record}
    (member : item ∈ records) :
    uidKey reading whole item.1 = sortKey (recordTimestamp reading item.2) := by
  obtain ⟨record, found, _, sameTime⟩ := agrees item member
  rw [Records.uidKey, found, Option.bind_some, sameTime]

theorem Agrees.rankingOf_keys (agrees : Agrees reading whole records) :
    Dict.keys (rankingOf reading cutoff records body) =
      newest (Records.uidKey reading whole)
        (records.keys.filter (inBody reading cutoff body whole)) := by
  rw [rankingOf, Dict.keys, ← agrees.keys]
  refine map_newest fun item member => agrees.uidKey ?_
  exact List.mem_of_mem_filter (List.mem_of_mem_filter member)

omit [LinearOrder Time] in
theorem Agrees.merge (agrees : Agrees reading whole records) (also : Agrees reading whole fresh) :
    Agrees reading whole (mergeRecords records fresh) := by
  intro item member
  exact (Dict.mem_update member).elim (agrees item) (also item)

theorem Agrees.archive (agrees : Agrees reading whole records) :
    Agrees reading whole (archiveOf reading cutoff full metadata records) := by
  intro kept member
  obtain ⟨_, item, listed, same⟩ := mem_archiveOf member
  rcases same with rfl | rfl
  · exact agrees _ listed
  · rw [bodyOf_withoutAudio, recordTimestamp_withoutAudio]
    exact agrees item listed

end

/-! ## Rankings from their uids -/

section

variable {Time : Type} [LinearOrder Time] {reading : Reading Time} {cutoff : Time} {body : String}
  {records : Dict String Record} {n : Nat}

theorem mem_take_rankingOf (nodup : records.keys.Nodup) {item : String × Record} :
    item ∈ (rankingOf reading cutoff records body).take n ↔
      item.1 ∈ (Dict.keys (rankingOf reading cutoff records body)).take n ∧
        records.get? item.1 = some item.2 := by
  rw [Dict.keys, ← List.map_take]
  constructor
  · intro member
    have listed := (mem_rankingOf.mp (List.mem_of_mem_take member)).1
    exact ⟨List.mem_map_of_mem member, Dict.get?_of_mem nodup listed⟩
  · rintro ⟨member, found⟩
    obtain ⟨other, ranked, same⟩ := List.mem_map.mp member
    have listed := (mem_rankingOf.mp (List.mem_of_mem_take ranked)).1
    have stored := Dict.get?_of_mem nodup listed
    rw [same, found, Option.some.injEq] at stored
    rwa [Prod.ext same.symm stored]

theorem take_rankingOf (nodup : records.keys.Nodup) :
    (rankingOf reading cutoff records body).take n =
      ((Dict.keys (rankingOf reading cutoff records body)).take n).map fun uid =>
        (uid, (records.get? uid).getD []) := by
  rw [Dict.keys, ← List.map_take, List.map_map]
  refine (List.map_id _).symm.trans (List.map_congr_left fun item member => ?_)
  have found := ((mem_take_rankingOf nodup).mp member).2
  rw [Function.comp_apply, found, Option.getD_some]
  rfl

end

/-! ## Some of the fresh records first -/

section

variable {Time : Type} (reading : Reading Time) (persisted early fresh : Dict String Record)

def undatedNew (records : Dict String Record) (body : String) : List String :=
  (records.filter fun item => bodyOf reading item.2 = body ∧
    recordTimestamp reading item.2 = none ∧ persisted.get? item.1 = none).map Prod.fst

/-- Fresh records change neither the body nor the date of an existing uid. -/
def KeepsPlaces : Prop :=
  ∀ uid old new, persisted.get? uid = some old → fresh.get? uid = some new →
    bodyOf reading new = bodyOf reading old ∧ recordTimestamp reading new = recordTimestamp reading old

def DatesApart (records : Dict String Record) : Prop :=
  ∀ first ∈ records, ∀ second ∈ records, bodyOf reading first.2 = bodyOf reading second.2 →
    recordTimestamp reading first.2 ≠ none →
    recordTimestamp reading first.2 = recordTimestamp reading second.2 → first.1 = second.1

/-- Some of the fresh records, which are persisted early. In each body the new
undated ones among them are the first of the new undated ones. -/
structure PersistedEarly : Prop where
  persistedNodup : persisted.keys.Nodup
  earlyNodup : early.keys.Nodup
  freshNodup : fresh.keys.Nodup
  included : ∀ uid record, early.get? uid = some record → fresh.get? uid = some record
  places : KeepsPlaces reading persisted fresh
  dates : DatesApart reading (mergeRecords persisted fresh)
  undated : ∀ body, undatedNew reading persisted early body <+: undatedNew reading persisted fresh body

end

section

variable {Time : Type} {reading : Reading Time} {persisted early fresh : Dict String Record}

theorem mergeRecords_get? (nodup : fresh.keys.Nodup) (uid : String) :
    (mergeRecords persisted fresh).get? uid = (fresh.get? uid).or (persisted.get? uid) :=
  Dict.get?_update nodup persisted uid

theorem mergeRecords_keys (nodup : fresh.keys.Nodup) :
    (mergeRecords persisted fresh).keys = joined persisted.keys fresh.keys :=
  Dict.keys_update nodup persisted

namespace PersistedEarly

variable (part : PersistedEarly reading persisted early fresh)

include part

theorem agrees_fresh : Agrees reading (mergeRecords persisted fresh) fresh := by
  intro item member
  refine ⟨item.2, ?_, rfl, rfl⟩
  rw [mergeRecords_get? part.freshNodup, Dict.get?_of_mem part.freshNodup member]
  rfl

theorem agrees_persisted : Agrees reading (mergeRecords persisted fresh) persisted := by
  intro item member
  have old := Dict.get?_of_mem part.persistedNodup member
  cases found : fresh.get? item.1 with
  | none =>
      refine ⟨item.2, ?_, rfl, rfl⟩
      rw [mergeRecords_get? part.freshNodup, found, old]
      rfl
  | some new =>
      refine ⟨new, ?_, part.places item.1 item.2 new old found⟩
      rw [mergeRecords_get? part.freshNodup, found]
      rfl

theorem agrees_early : Agrees reading (mergeRecords persisted fresh) early := by
  intro item member
  have found := part.included _ _ (Dict.get?_of_mem part.earlyNodup member)
  exact part.agrees_fresh item (Dict.get?_eq_some_mem found)

end PersistedEarly

theorem sortKey_eq_bot [LinearOrder Time] {time : Option Time} : sortKey time = ⊥ ↔ time = none := by
  cases time with
  | none => exact ⟨fun _ => rfl, fun _ => rfl⟩
  | some time => exact ⟨fun bottom => (WithBot.coe_ne_bot bottom).elim, fun impossible => nomatch impossible⟩

theorem sortKey_injective [LinearOrder Time] {first second : Option Time}
    (same : sortKey first = sortKey second) : first = second := by
  cases first with
  | none => exact (sortKey_eq_bot.mp same.symm).symm
  | some time =>
      cases second with
      | none => exact (WithBot.coe_ne_bot same).elim
      | some other => exact congrArg some (WithBot.coe_injective same)

theorem joined_filter {first second : List String} (test : String → Bool) :
    (joined first second).filter test = joined (first.filter test) (second.filter test) := by
  rw [joined, joined, List.filter_append, List.filter_filter, List.filter_filter]
  refine congrArg _ (List.filter_congr fun uid _ => ?_)
  by_cases inside : uid ∈ first <;> cases passes : test uid <;> simp [inside, passes]

namespace PersistedEarly

variable [LinearOrder Time] {cutoff : Time} {body : String}
  (part : PersistedEarly reading persisted early fresh)

theorem unkeyed_eq {whole records : Dict String Record} (agrees : Agrees reading whole records) :
    unkeyed (uidKey reading whole) ((records.keys.filter (inBody reading cutoff body whole)).filter
      (· ∉ persisted.keys.filter (inBody reading cutoff body whole))) =
      undatedNew reading persisted records body := by
  unfold unkeyed undatedNew Dict.keys
  rw [List.filter_filter, List.filter_filter, List.filter_map]
  refine congrArg _ (List.filter_congr fun item member => ?_)
  obtain ⟨record, found, sameBody, sameTime⟩ := agrees item member
  have key : uidKey reading whole item.1 = sortKey (recordTimestamp reading item.2) :=
    agrees.uidKey member
  have place : inBody reading cutoff body whole item.1 =
      (survives reading cutoff item.2 && bodyOf reading item.2 = body) := by
    rw [inBody, found, Option.any_some, survives, survives, sameBody, sameTime]
  have absent : persisted.get? item.1 = none ↔ item.1 ∉ persisted.map Prod.fst :=
    Dict.get?_eq_none_iff
  have lasting : recordTimestamp reading item.2 = none → survives reading cutoff item.2 = true := by
    intro undated
    rw [survives, undated]
  rw [Bool.eq_iff_iff]
  simp only [Function.comp_apply, Bool.and_eq_true, decide_eq_true_iff, List.mem_filter, key,
    sortKey_eq_bot, place, absent]
  constructor
  · rintro ⟨⟨undated, new⟩, survived, here⟩
    exact ⟨here, undated, fun listed => new ⟨listed, survived, here⟩⟩
  · rintro ⟨here, undated, new⟩
    exact ⟨⟨undated, fun listed => new listed.1⟩, lasting undated, here⟩

include part

theorem arrivals : Arrivals (uidKey reading (mergeRecords persisted fresh))
    (persisted.keys.filter (inBody reading cutoff body (mergeRecords persisted fresh)))
    (early.keys.filter (inBody reading cutoff body (mergeRecords persisted fresh)))
    (fresh.keys.filter (inBody reading cutoff body (mergeRecords persisted fresh))) where
  oldNodup := part.persistedNodup.filter _
  earlyNodup := part.earlyNodup.filter _
  lateNodup := part.freshNodup.filter _
  included uid member := by
    obtain ⟨listed, passes⟩ := List.mem_filter.mp member
    obtain ⟨record, found⟩ := Option.isSome_iff_exists.mp (Dict.get?_isSome_iff_mem_keys.mpr listed)
    have known := part.included uid record found
    exact List.mem_filter.mpr ⟨Dict.get?_isSome_iff_mem_keys.mp (by rw [known]; rfl), passes⟩
  apart := by
    rw [← joined_filter, ← mergeRecords_keys part.freshNodup]
    have placed : ∀ uid ∈ (mergeRecords persisted fresh).keys.filter
        (inBody reading cutoff body (mergeRecords persisted fresh)),
        ∃ record, (uid, record) ∈ mergeRecords persisted fresh ∧ bodyOf reading record = body ∧
          uidKey reading (mergeRecords persisted fresh) uid =
            sortKey (recordTimestamp reading record) := by
      intro uid member
      obtain ⟨record, found, passes⟩ := (Option.any_eq_true _ _).mp (List.mem_filter.mp member).2
      refine ⟨record, Dict.get?_eq_some_mem found, ?_, ?_⟩
      · exact of_decide_eq_true (Bool.and_eq_true_iff.mp passes).2
      · rw [uidKey, found, Option.bind_some]
    intro first member second later dated same
    obtain ⟨left, inside, leftBody, leftKey⟩ := placed first member
    obtain ⟨right, also, rightBody, rightKey⟩ := placed second later
    rw [leftKey, rightKey] at same
    rw [leftKey] at dated
    exact part.dates _ inside _ also (leftBody.trans rightBody.symm)
      (fun undated => dated (sortKey_eq_bot.mpr undated)) (sortKey_injective same)
  first := by
    rw [unkeyed_eq part.agrees_early, unkeyed_eq part.agrees_fresh]
    exact part.undated body

variable {full metadata : Nat} (ordered : full ≤ metadata)

omit [LinearOrder Time] in
theorem whole_nodup : (mergeRecords persisted fresh).keys.Nodup :=
  Dict.nodup_keys_update part.persistedNodup fresh

omit [LinearOrder Time] in
theorem early_nodup : (mergeRecords persisted early).keys.Nodup :=
  Dict.nodup_keys_update part.persistedNodup early

theorem early_ranking : Dict.keys (rankingOf reading cutoff (mergeRecords persisted early) body) =
    newest (uidKey reading (mergeRecords persisted fresh)) (joined
      (persisted.keys.filter (inBody reading cutoff body (mergeRecords persisted fresh)))
      (early.keys.filter (inBody reading cutoff body (mergeRecords persisted fresh)))) := by
  rw [(part.agrees_persisted.merge part.agrees_early).rankingOf_keys,
    mergeRecords_keys part.earlyNodup, joined_filter]

theorem whole_ranking : Dict.keys (rankingOf reading cutoff (mergeRecords persisted fresh) body) =
    newest (uidKey reading (mergeRecords persisted fresh)) (joined
      (persisted.keys.filter (inBody reading cutoff body (mergeRecords persisted fresh)))
      (fresh.keys.filter (inBody reading cutoff body (mergeRecords persisted fresh)))) := by
  rw [(part.agrees_persisted.merge part.agrees_fresh).rankingOf_keys,
    mergeRecords_keys part.freshNodup, joined_filter]

include ordered

theorem late_ranking_take :
    (Dict.keys (rankingOf reading cutoff (mergeRecords (archiveOf reading cutoff full metadata
      (mergeRecords persisted early)) fresh) body)).take metadata =
      (Dict.keys (rankingOf reading cutoff (mergeRecords persisted fresh) body)).take metadata := by
  have agreesEarly := part.agrees_persisted.merge part.agrees_early
  have agreesArchive : Agrees reading (mergeRecords persisted fresh)
      (archiveOf reading cutoff full metadata (mergeRecords persisted early)) := agreesEarly.archive
  have survivors : survivorsOf reading cutoff (archiveOf reading cutoff full metadata
      (mergeRecords persisted early)) =
      archiveOf reading cutoff full metadata (mergeRecords persisted early) :=
    List.filter_eq_self.mpr fun item member => (mem_archiveOf member).1
  have kept : (archiveOf reading cutoff full metadata (mergeRecords persisted early)).keys.filter
      (inBody reading cutoff body (mergeRecords persisted fresh)) =
      (Dict.keys (rankingOf reading cutoff (mergeRecords persisted early) body)).take metadata := by
    rw [← agreesArchive.keys, survivors, ofBody_archiveOf, tiers_keys _ ordered, Dict.keys,
      List.map_take]
  rw [(agreesArchive.merge part.agrees_fresh).rankingOf_keys, mergeRecords_keys part.freshNodup,
    joined_filter, kept, part.early_ranking, part.arrivals.take_newest, part.whole_ranking]

variable {uid : String}

omit ordered in
theorem early_ranked {n : Nat} (kept : fresh.get? uid = none)
    (member : uid ∈ (Dict.keys (rankingOf reading cutoff (mergeRecords persisted fresh) body)).take n) :
    ∃ record, (mergeRecords persisted fresh).get? uid = some record ∧
      (uid, record) ∈ (rankingOf reading cutoff (mergeRecords persisted early) body).take n := by
  rw [part.whole_ranking] at member
  have listed : uid ∈ persisted.keys.filter
      (inBody reading cutoff body (mergeRecords persisted fresh)) := by
    rcases mem_joined.mp (mem_newest.mp (List.mem_of_mem_take member)) with old | new
    · exact old
    · have known := Dict.get?_isSome_iff_mem_keys.mpr (List.mem_of_mem_filter new)
      rw [kept] at known
      cases known
  obtain ⟨record, found⟩ := Option.isSome_iff_exists.mp
    (Dict.get?_isSome_iff_mem_keys.mpr (List.mem_of_mem_filter listed))
  have notEarly : early.get? uid = none := by
    cases soon : early.get? uid with
    | none => rfl
    | some other =>
        rw [part.included uid other soon] at kept
        cases kept
  refine ⟨record, ?_, (mem_take_rankingOf part.early_nodup).mpr ⟨?_, ?_⟩⟩
  · rw [mergeRecords_get? part.freshNodup, kept, found]
    rfl
  · rw [part.early_ranking]
    refine mem_take_of_sublist part.arrivals.sublist (newest_perm.nodup_iff.mpr (joined_nodup
      part.arrivals.oldNodup part.arrivals.lateNodup)) (mem_newest.mpr (mem_joined.mpr (.inl listed)))
      member
  · rw [mergeRecords_get? part.earlyNodup, notEarly, found]
    rfl

theorem archive_nodup : (archiveOf reading cutoff full metadata (mergeRecords persisted early)).keys.Nodup :=
  archiveOf_keys_nodup ordered part.early_nodup

theorem late_get?_full
    (member : uid ∈ (Dict.keys (rankingOf reading cutoff (mergeRecords persisted fresh) body)).take full) :
    (mergeRecords (archiveOf reading cutoff full metadata (mergeRecords persisted early))
      fresh).get? uid = (mergeRecords persisted fresh).get? uid := by
  cases kept : fresh.get? uid with
  | some new => rw [mergeRecords_get? part.freshNodup, mergeRecords_get? part.freshNodup, kept]; rfl
  | none =>
      obtain ⟨record, found, ranked⟩ := part.early_ranked kept member
      have tier : (uid, record) ∈ tiers full metadata
          (rankingOf reading cutoff (mergeRecords persisted early) body) :=
        List.mem_append_left _ ranked
      rw [← ofBody_archiveOf] at tier
      have stored := Dict.get?_of_mem (part.archive_nodup ordered) (List.mem_of_mem_filter tier)
      rw [found, mergeRecords_get? part.freshNodup, kept, stored]
      rfl

/-- Records that are retained differ in their audio at most. -/
theorem late_get?_kept
    (member : uid ∈ (Dict.keys (rankingOf reading cutoff (mergeRecords persisted fresh) body)).take
      metadata) :
    withoutAudio (uid, ((mergeRecords (archiveOf reading cutoff full metadata
      (mergeRecords persisted early)) fresh).get? uid).getD []) =
      withoutAudio (uid, ((mergeRecords persisted fresh).get? uid).getD []) := by
  cases kept : fresh.get? uid with
  | some new => rw [mergeRecords_get? part.freshNodup, mergeRecords_get? part.freshNodup, kept]; rfl
  | none =>
      obtain ⟨record, found, ranked⟩ := part.early_ranked kept member
      have bare : withoutAudio (uid, record) ∈ (tiers full metadata
          (rankingOf reading cutoff (mergeRecords persisted early) body)).map withoutAudio := by
        rw [tiers_map withoutAudio _ ordered withoutAudio_withoutAudio]
        exact List.mem_map_of_mem ranked
      obtain ⟨⟨other, retained⟩, tier, same⟩ := List.mem_map.mp bare
      obtain rfl : other = uid := congrArg Prod.fst same
      rw [← ofBody_archiveOf] at tier
      have stored := Dict.get?_of_mem (part.archive_nodup ordered) (List.mem_of_mem_filter tier)
      rw [found, mergeRecords_get? part.freshNodup, kept, stored]
      exact same

theorem late_tiers : tiers full metadata (rankingOf reading cutoff (mergeRecords
      (archiveOf reading cutoff full metadata (mergeRecords persisted early)) fresh) body) =
    tiers full metadata (rankingOf reading cutoff (mergeRecords persisted fresh) body) := by
  have lateNodup : (mergeRecords (archiveOf reading cutoff full metadata
      (mergeRecords persisted early)) fresh).keys.Nodup :=
    Dict.nodup_keys_update (part.archive_nodup ordered) fresh
  have uids := @late_ranking_take Time reading persisted early fresh _ cutoff body part full metadata
    ordered
  have fullUids := congrArg (List.take full) uids
  rw [List.take_take, List.take_take, Nat.min_eq_left ordered] at fullUids
  refine tiers_of_take ?_ ?_
  · rw [take_rankingOf lateNodup, take_rankingOf part.whole_nodup, fullUids]
    refine List.map_congr_left fun uid member => ?_
    rw [part.late_get?_full ordered member]
  · rw [take_rankingOf lateNodup, take_rankingOf part.whole_nodup, uids, List.map_map, List.map_map]
    exact List.map_congr_left fun uid member => part.late_get?_kept ordered member

end PersistedEarly

/-! ## Retention by body -/

variable {body : String}

theorem ofBody_cons (item : String × Record) (rest : Dict String Record) :
    ofBody reading body (item :: rest) =
      if bodyOf reading item.2 = body then item :: ofBody reading body rest
      else ofBody reading body rest := by
  rw [ofBody, List.filter_cons]
  by_cases here : bodyOf reading item.2 = body
  · rw [if_pos (decide_eq_true here), if_pos here]
    rfl
  · rw [if_neg (by simpa using here), if_neg here]
    rfl

theorem ofBody_set {records : Dict String Record} {uid : String} {record : Record}
    (same : ∀ old, records.get? uid = some old → bodyOf reading record = bodyOf reading old) :
    ofBody reading body (records.set uid record) =
      if bodyOf reading record = body then (ofBody reading body records).set uid record
      else ofBody reading body records := by
  induction records with
  | nil => exact ofBody_cons (uid, record) []
  | cons item rest induction =>
      obtain ⟨other, old⟩ := item
      by_cases found : other = uid
      · subst found
        have sameBody := same old (by rw [Dict.get?_cons, if_pos rfl])
        rw [Dict.set, if_pos rfl, ofBody_cons, ofBody_cons, sameBody]
        by_cases here : bodyOf reading old = body
        · rw [if_pos here, if_pos here, if_pos here, Dict.set, if_pos rfl]
        · rw [if_neg here, if_neg here, if_neg here]
      · have later := induction fun old stored => same old (by
          rw [Dict.get?_cons, if_neg found]
          exact stored)
        rw [Dict.set, if_neg found, ofBody_cons, ofBody_cons, later]
        by_cases here : bodyOf reading record = body
        · rw [if_pos here, if_pos here]
          by_cases there : bodyOf reading old = body
          · rw [if_pos there, if_pos there, Dict.set, if_neg found]
          · rw [if_neg there, if_neg there]
        · rw [if_neg here, if_neg here]

theorem mergeRecords_ofBody (nodup : fresh.keys.Nodup)
    (same : ∀ uid old new, persisted.get? uid = some old → fresh.get? uid = some new →
      bodyOf reading new = bodyOf reading old) :
    mergeRecords (ofBody reading body persisted) (ofBody reading body fresh) =
      ofBody reading body (mergeRecords persisted fresh) := by
  induction fresh generalizing persisted with
  | nil => rfl
  | cons item rest induction =>
      obtain ⟨uid, record⟩ := item
      obtain ⟨unique, later⟩ := List.nodup_cons.mp nodup
      have others : ∀ other old new, (persisted.set uid record).get? other = some old →
          Dict.get? rest other = some new → bodyOf reading new = bodyOf reading old := by
        intro other old new stored found
        have listed : other ∈ Dict.keys rest := Dict.get?_isSome_iff_mem_keys.mp (by rw [found]; rfl)
        have different : other ≠ uid := fun equal => unique (equal ▸ listed)
        rw [Dict.get?_set_other _ _ different] at stored
        refine same other old new stored ?_
        rw [Dict.get?_cons, if_neg (Ne.symm different)]
        exact found
      have step : mergeRecords persisted ((uid, record) :: rest) =
          mergeRecords (persisted.set uid record) rest := rfl
      rw [step, ← induction later others, ofBody_set fun old stored =>
        same uid old record stored (by rw [Dict.get?_cons, if_pos rfl])]
      rw [ofBody_cons]
      by_cases here : bodyOf reading record = body
      · rw [if_pos here, if_pos here]
        rfl
      · rw [if_neg here, if_neg here]

end

section

variable {Time : Type} [LinearOrder Time] (reading : Reading Time) (cutoff : Time)
  (full metadata : Nat) (persisted fresh : Dict String Record)

def retained : Dict String Record :=
  ((projectBodyRetainedArchive reading cutoff full metadata persisted fresh).toOption).getD []

/-- The retained archive is made body by body, of the newest records of each, and
stays what it is when it is made again, or of some of the fresh records first. -/
structure RetainsByBody : Prop where
  succeeds : projectBodyRetainedArchive reading cutoff full metadata persisted fresh =
    .ok (retained reading cutoff full metadata persisted fresh)
  alone : ∀ body, ofBody reading body (retained reading cutoff full metadata persisted fresh) =
    retained reading cutoff full metadata [] (ofBody reading body (mergeRecords persisted fresh))
  apart : (∀ uid old new, persisted.get? uid = some old → fresh.get? uid = some new →
      bodyOf reading new = bodyOf reading old) →
    ∀ body, ofBody reading body (retained reading cutoff full metadata persisted fresh) =
      retained reading cutoff full metadata (ofBody reading body persisted)
        (ofBody reading body fresh)
  newest : ∀ body, ∃ ranking : List (String × Record),
    ranking.Perm (ofBody reading body (survivorsOf reading cutoff (mergeRecords persisted fresh))) ∧
      (ranking.Pairwise fun first second =>
        sortKey (recordTimestamp reading second.2) ≤ sortKey (recordTimestamp reading first.2)) ∧
      ofBody reading body (retained reading cutoff full metadata persisted fresh) =
        ranking.take full ++ ((ranking.take metadata).drop full).map withoutAudio
  again : SameRecords
    (retained reading cutoff full metadata (retained reading cutoff full metadata persisted fresh) [])
    (retained reading cutoff full metadata persisted fresh)
  partFirst : ∀ early, PersistedEarly reading persisted early fresh → SameRecords
    (retained reading cutoff full metadata (retained reading cutoff full metadata persisted early) fresh)
    (retained reading cutoff full metadata persisted fresh)

end

/-- Bodies by their names, and the day of the year as the date. -/
def dayReading : Reading Nat where
  bodyKey name := name
  timestamp text := text.toNat?

def newRecord : Record := [("body", .str "Council"), ("published", .str "20"), ("audio", .str "b.m4a")]

def oldRecord : Record := [("body", .str "Council"), ("published", .str "10"), ("audio", .str "a.m4a")]

def undatedRecord : Record := [("body", .str "Council")]

end CityPods.Records
