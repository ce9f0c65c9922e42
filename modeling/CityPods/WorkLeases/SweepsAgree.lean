import CityPods.WorkLeases.Sweeps

/-! # The two sweeps agree

Run alone over one store, the sweep of a backlog and the sweep of the index settle
the same leases, where the index is filed as the lease calls file it and no two of
the pairs they are given name one lease object.
-/

namespace CityPods.WorkLeases

open Foundation

section

variable (state : String → Option Stored) (item : Item)

def Leased : Prop := ((state item.leaseKey).bind Stored.leased).isSome = true

def NamedBy (n : Nat) (id : String) : Prop :=
  n < indexBucketCount ∧ ∃ entry, (id, entry) ∈ bucketAt state n ∧
    entry.item.leaseKey = item.leaseKey

def HasEntry : Prop := ∃ n id, NamedBy state item n id

end

section

variable (state : String → Option Stored) (candidates : List Item)

def OneEntryEach : Prop :=
  ∀ item, Leased state item → ∃ id, ∀ n other,
    NamedBy state item n other ↔ n = indexBucketFor item.1 item.2 indexBucketCount ∧ other = id

def Covers : Prop := ∀ item, Leased state item → ∃ candidate ∈ candidates,
  candidate.leaseKey = item.leaseKey

structure WellFiled : Prop where
  keys : ∀ n < indexBucketCount, (bucketAt state n).keys.Nodup
  filed : ∀ n < indexBucketCount, ∀ id entry, (id, entry) ∈ bucketAt state n →
    id = entry.item.entryId ∧ entry.isNamed = true

/-- No two of the pairs that the sweeps are given name one lease object. -/
def Unambiguous : Prop :=
  ∀ first ∈ candidates ++ indexedItems state (List.range indexBucketCount),
    ∀ second ∈ candidates ++ indexedItems state (List.range indexBucketCount),
      first.leaseKey = second.leaseKey → first = second

end

section

variable (answer : Query → Bool) (now : Int) (candidates : List Item) (store : Store String Stored)

def reaped (dryRun : Bool) : SweepCounts × Store String Stored :=
  (reap now dryRun candidates {}).exec answer store

def reapedIndexed (dryRun : Bool) : IndexedSummary × Store String Stored :=
  (reapIndexed now dryRun indexBucketCount none).exec answer store

structure SweepsAgree : Prop where
  leases : ∀ item : Item, valueOf (reaped answer now candidates store false).2 item.leaseKey =
    valueOf (reapedIndexed answer now store false).2 item.leaseKey
  counts : (reaped answer now candidates store false).1 =
    (reapedIndexed answer now store false).1.counts
  callbacks : ((reap now false candidates {}).notes answer store).Perm
    ((reapIndexed now false indexBucketCount none).notes answer store)
  index : ∀ item, HasEntry (valueOf (reapedIndexed answer now store false).2) item ↔
    Leased (valueOf (reapedIndexed answer now store false).2) item
  dryStores : (reaped answer now candidates store true).2 = store ∧
    (reapedIndexed answer now store true).2 = store
  dryCounts : (reaped answer now candidates store true).1 =
      (reaped answer now candidates store false).1 ∧
    (reapedIndexed answer now store true).1.counts =
      (reapedIndexed answer now store false).1.counts

end

/-! ## Counts do not depend on the order of visits -/

theorem countAll_eq (counts : SweepCounts) (reports : List (Option (Outcome × String))) :
    countAll counts reports =
      reports.reduceOption.foldl (fun counts report => counts.count report.1) counts := by
  induction reports generalizing counts with
  | nil => rfl
  | cons report rest induction =>
      cases report with
      | none => exact induction counts
      | some report => exact induction (counts.count report.1)

theorem SweepCounts.count_comm (counts : SweepCounts) (first second : Outcome) :
    (counts.count first).count second = (counts.count second).count first := by
  cases first <;> cases second <;> rfl

theorem countAll_perm {first second : List (Option (Outcome × String))}
    (perm : first.reduceOption.Perm second.reduceOption) (counts : SweepCounts) :
    countAll counts first = countAll counts second := by
  rw [countAll_eq, countAll_eq]
  exact perm.foldl_eq' (fun first _ second _ counts => counts.count_comm first.1 second.1) counts

/-! ## Both sweeps visit an active lease once -/

theorem bucketKeys_nodup : ((List.range indexBucketCount).map indexBucketKey).Nodup := by
  decide +kernel

section

variable {answer : Query → Bool} {now : Int} {candidates : List Item} {store : Store String Stored}
  {state : String → Option Stored} {item : Item}

theorem leased_iff_active : Leased state item ↔
    ((sweepRules answer now).activeAt state item).isSome = true := by
  show ((state item.leaseKey).bind Stored.leased).isSome = true ↔
    ((state item.leaseKey).filter fun stored => stored.leased.isSome).isSome = true
  cases state item.leaseKey with
  | none => exact Iff.rfl
  | some stored =>
      rw [Option.bind_some, Option.filter_some]
      cases stored.leased.isSome <;> simp

theorem leased_congr {other : Item} (same : item.leaseKey = other.leaseKey) :
    Leased state item ↔ Leased state other := by
  rw [Leased, Leased, same]

theorem mem_itemsOf {entries : Entries} : item ∈ itemsOf entries ↔
    ∃ id entry, (id, entry) ∈ entries ∧ entry.isNamed = true ∧ entry.item = item := by
  simp only [itemsOf, Dict.values, List.mem_map, List.mem_filter]
  constructor
  · rintro ⟨entry, ⟨⟨⟨id, _⟩, member, rfl⟩, named⟩, rfl⟩
    exact ⟨id, _, member, named, rfl⟩
  · rintro ⟨id, entry, member, named, rfl⟩
    exact ⟨entry, ⟨⟨(id, entry), member, rfl⟩, named⟩, rfl⟩

theorem mem_indexedItems : item ∈ indexedItems state (List.range indexBucketCount) ↔
    ∃ n < indexBucketCount, ∃ id entry, (id, entry) ∈ bucketAt state n ∧ entry.isNamed = true ∧
      entry.item = item := by
  simp only [indexedItems, List.mem_flatMap, List.mem_range, mem_itemsOf]

theorem candidates_apart (nodup : candidates.Nodup) (clear : Unambiguous state candidates) :
    (sweepRules answer now).Apart state candidates := by
  refine nodup.imp_of_mem fun first second different same => ?_
  exact absurd (clear _ (List.mem_append_left _ first) _ (List.mem_append_left _ second) same) different

theorem indexed_apart (filed : WellFiled state) (once : OneEntryEach state) :
    (sweepRules answer now).Apart state (indexedItems state (List.range indexBucketCount)) := by
  -- two entries that name one active lease are the same entry of the same bucket
  have unique : ∀ {n m : Nat} {left right : String × IndexEntry}, n < indexBucketCount →
      m < indexBucketCount → left ∈ bucketAt state n → right ∈ bucketAt state m →
      left.2.item.leaseKey = right.2.item.leaseKey → Leased state left.2.item →
      n = m ∧ left.1 = right.1 := by
    intro n m left right small less member later same leased
    obtain ⟨id, only⟩ := once left.2.item leased
    obtain ⟨inBucket, named⟩ := (only n left.1).mp ⟨small, left.2, member, rfl⟩
    obtain ⟨inOther, renamed⟩ := (only m right.1).mp ⟨less, right.2, later, same.symm⟩
    exact ⟨inBucket.trans inOther.symm, named.trans renamed.symm⟩
  have inactive : ∀ {item : Item}, ¬ Leased state item →
      (sweepRules answer now).activeAt state item = none := by
    intro item unleased
    rwa [@leased_iff_active answer now, Option.not_isSome_iff_eq_none] at unleased
  refine List.pairwise_flatMap.mpr ⟨fun n small => ?_, ?_⟩
  · have keys := List.pairwise_map.mp (filed.keys n (List.mem_range.mp small))
    refine List.pairwise_map.mpr (List.Pairwise.filter _ (List.pairwise_map.mpr ?_))
    refine keys.imp_of_mem fun {left right} first second different same => inactive fun leased => ?_
    have small := List.mem_range.mp small
    exact different (unique small small first second same leased).2
  · refine List.nodup_range.imp_of_mem fun {n m} small less different => ?_
    intro first inFirst second inSecond same
    obtain ⟨id, entry, member, _, rfl⟩ := mem_itemsOf.mp inFirst
    obtain ⟨other, next, later, _, rfl⟩ := mem_itemsOf.mp inSecond
    refine inactive fun leased => different ?_
    exact (@unique n m (id, entry) (other, next) (List.mem_range.mp small) (List.mem_range.mp less)
      member later same leased).1

theorem visited_iff (filed : WellFiled state) (once : OneEntryEach state)
    (covers : Covers state candidates) (clear : Unambiguous state candidates)
    (leased : Leased state item) :
    item ∈ candidates ↔ item ∈ indexedItems state (List.range indexBucketCount) := by
  constructor
  · intro listed
    obtain ⟨id, only⟩ := once item leased
    obtain ⟨small, entry, member, same⟩ := (only _ _).mpr ⟨rfl, rfl⟩
    have visited : entry.item ∈ indexedItems state (List.range indexBucketCount) :=
      mem_indexedItems.mpr ⟨_, small, id, entry, member, (filed.filed _ small _ _ member).2, rfl⟩
    rw [← clear _ (List.mem_append_right _ visited) _ (List.mem_append_left _ listed) same]
    exact visited
  · intro visited
    obtain ⟨candidate, listed, same⟩ := covers item leased
    rw [← clear _ (List.mem_append_left _ listed) _ (List.mem_append_right _ visited) same]
    exact listed

/-! ## What stays in the index -/

theorem WorkLease.swept_settles {lease settled : WorkLease} {present : Bool} {outcome : Outcome}
    (swept : lease.swept present now = some (settled, outcome)) : outcome.isSettled = true := by
  unfold WorkLease.swept at swept
  split at swept
  · cases swept
    rfl
  · split at swept
    · cases swept
      rfl
    · cases swept

theorem stays_iff {items : List Item} (apart : (sweepRules answer now).Apart state items)
    (member : item ∈ items) :
    stays (((sweepRules answer now).report state item).map Prod.fst) = true ↔
      Leased ((sweepRules answer now).after state items) item := by
  rw [@leased_iff_active answer now, Settling.Rules.activeAt_after apart member,
    Settling.Rules.report]
  cases active : (sweepRules answer now).activeAt state item with
  | none => simp [stays]
  | some stored =>
      have leased : stored.leased.isSome = true := (Option.filter_eq_some_iff.mp active).2
      obtain ⟨lease, read⟩ := Option.isSome_iff_exists.mp leased
      have settle : (sweepRules answer now).settle item stored =
          (sweepOf answer now item lease).map fun swept => .lease swept.1 := by
        show (stored.leased.bind _).map _ = _
        rw [read]
        rfl
      have outcome : ((sweepRules answer now).outcome item stored).1 =
          ((sweepOf answer now item lease).map Prod.snd).getD .inFlight := by
        show ((stored.leased.bind _).map _).getD _ = _
        rw [read]
        rfl
      rw [Option.map_some, Option.map_some, Option.filter_some, outcome, settle]
      cases swept : sweepOf answer now item lease with
      | none => exact ⟨fun _ => rfl, fun _ => rfl⟩
      | some settled =>
          have ended : settled.2.isSettled = true := WorkLease.swept_settles swept
          simp [stays, ended]

theorem mem_droppedIds {items : List Item} {report : Item → Option (Outcome × String)} {id : String} :
    id ∈ droppedIds items (items.map report) ↔
      ∃ item ∈ items, stays ((report item).map Prod.fst) = false ∧ item.entryId = id := by
  induction items with
  | nil => simp [droppedIds]
  | cons first rest induction =>
      rw [List.map_cons, droppedIds_cons, List.mem_append, induction]
      cases kept : stays ((report first).map Prod.fst) <;> simp [kept, @eq_comm _ id]

theorem not_mem_dropsOf (filed : WellFiled state) {n : Nat} (small : n < indexBucketCount)
    {id : String} {entry : IndexEntry} (member : (id, entry) ∈ bucketAt state n) :
    id ∉ dropsOf answer now state n ↔
      stays (((sweepRules answer now).report state entry.item).map Prod.fst) = true := by
  obtain ⟨named, isNamed⟩ := filed.filed n small id entry member
  rw [dropsOf, mem_droppedIds]
  constructor
  · intro kept
    by_contra goes
    exact kept ⟨entry.item, mem_itemsOf.mpr ⟨id, entry, member, isNamed, rfl⟩,
      by simpa using goes, named.symm⟩
  · rintro kept ⟨other, visited, goes, sameId⟩
    obtain ⟨otherId, next, later, _, rfl⟩ := mem_itemsOf.mp visited
    obtain ⟨renamed, _⟩ := filed.filed n small otherId next later
    have sameKey : otherId = id := renamed.trans sameId
    subst sameKey
    have first := Dict.get?_of_mem (filed.keys n small) member
    have second := Dict.get?_of_mem (filed.keys n small) later
    rw [first, Option.some.injEq] at second
    rw [← second, kept] at goes
    cases goes

theorem hasEntry_iff_leased {counts total : SweepCounts} {final : Store String Stored}
    {noted : List Note} (filed : WellFiled (valueOf store)) (once : OneEntryEach (valueOf store))
    (swept : SweepsIndex answer now false (List.range indexBucketCount) counts store total final
      noted) :
    HasEntry (valueOf final) item ↔ Leased (valueOf final) item := by
  have apart : (sweepRules answer now).Apart (valueOf store)
      (indexedItems (valueOf store) (List.range indexBucketCount)) := indexed_apart filed once
  have stayed : ∀ {n : Nat} {id : String} {entry : IndexEntry}, n < indexBucketCount →
      (id, entry) ∈ bucketAt (valueOf store) n →
      ((id, entry) ∈ bucketAt (valueOf final) n ↔ Leased (valueOf final) entry.item) := by
    intro n id entry small member
    have visited : entry.item ∈ indexedItems (valueOf store) (List.range indexBucketCount) :=
      mem_indexedItems.mpr ⟨n, small, id, entry, member, (filed.filed n small id entry member).2, rfl⟩
    rw [swept.pruned rfl n (List.mem_range.mpr small), and_iff_right member,
      not_mem_dropsOf filed small member, stays_iff apart visited, Leased, Leased, swept.leases]
    rfl
  constructor
  · rintro ⟨n, id, small, entry, member, same⟩
    have before := ((swept.pruned rfl n (List.mem_range.mpr small) _).mp member).1
    exact (leased_congr same).mp ((stayed small before).mp member)
  · intro leased
    have before : Leased (valueOf store) item := by
      by_contra unleased
      have inactive : (sweepRules answer now).activeAt (valueOf store) item = none := by
        rwa [@leased_iff_active answer now, Option.not_isSome_iff_eq_none] at unleased
      have same : valueOf final item.leaseKey = valueOf store item.leaseKey :=
        (swept.leases item).trans
          (Settling.Rules.after_of_inactive (Settling.Rules.inactive_of_none inactive))
      rw [Leased, same] at leased
      exact unleased leased
    obtain ⟨id, only⟩ := once item before
    obtain ⟨small, entry, member, same⟩ := (only _ _).mpr ⟨rfl, rfl⟩
    exact ⟨_, id, small, entry, (stayed small member).mpr ((leased_congr same).mpr leased), same⟩

/-! ## Agreement -/

theorem reapIndexed_eq (dryRun : Bool) :
    reapIndexed now dryRun indexBucketCount none =
      (sweepBuckets now dryRun (List.range indexBucketCount) {} []).bind fun swept =>
        .done ⟨swept.1, indexBucketCount, 0⟩ := rfl

theorem reapedIndexed_sweeps (filed : WellFiled (valueOf store)) (once : OneEntryEach (valueOf store))
    (dryRun : Bool) :
    SweepsIndex answer now dryRun (List.range indexBucketCount) {} store
      (reapedIndexed answer now store dryRun).1.counts (reapedIndexed answer now store dryRun).2
      ((reapIndexed now dryRun indexBucketCount none).notes answer store) := by
  rw [reapedIndexed, reapIndexed_eq, Program.exec_bind, Program.notes_bind, Program.notes,
    List.append_nil]
  exact sweepBuckets_sweeps _ _ _ bucketKeys_nodup (indexed_apart filed once)

end

theorem sweeps_agree (answer : Query → Bool) (now : Int) (candidates : List Item)
    (store : Store String Stored) (once : OneEntryEach (valueOf store)) (nodup : candidates.Nodup)
    (covers : Covers (valueOf store) candidates) (filed : WellFiled (valueOf store))
    (clear : Unambiguous (valueOf store) candidates) :
    SweepsAgree answer now candidates store := by
  have probed (dryRun : Bool) : Sweeps answer now dryRun candidates {} store
      (reaped answer now candidates store dryRun).1 (reaped answer now candidates store dryRun).2
      ((reap now dryRun candidates {}).notes answer store) := reap_sweeps candidates {}
  have indexed (dryRun : Bool) := @reapedIndexed_sweeps answer now store filed once dryRun
  have first : (sweepRules answer now).Apart (valueOf store) candidates :=
    candidates_apart nodup clear
  have second : (sweepRules answer now).Apart (valueOf store)
      (indexedItems (valueOf store) (List.range indexBucketCount)) := indexed_apart filed once
  have visited : ∀ item, ((sweepRules answer now).activeAt (valueOf store) item).isSome = true →
      (item ∈ candidates ↔ item ∈ indexedItems (valueOf store) (List.range indexBucketCount)) :=
    fun item active => visited_iff filed once covers clear (leased_iff_active.mpr active)
  have reported := Settling.Rules.reports_perm first second visited
  refine ⟨fun item => ?_, ?_, ?_, fun item => hasEntry_iff_leased filed once (indexed false),
    ⟨(probed true).untouched rfl, (indexed true).untouched rfl⟩, ?_, ?_⟩
  · rw [(probed false).left, (indexed false).leases]
    exact congrFun (Settling.Rules.after_eq first second visited) item.leaseKey
  · rw [(probed false).counted, (indexed false).counted]
    exact countAll_perm reported {}
  · rw [(probed false).notes, (indexed false).notes]
    exact reported.flatMap_right _
  · rw [(probed true).counted, (probed false).counted]
    exact congrArg _ (Settling.Rules.dry_reports first)
  · rw [(indexed true).counted, (indexed false).counted]
    exact congrArg _ (Settling.Rules.dry_reports second)

/-! ### Stores with one lease and one entry -/

instance (state : String → Option Stored) (item : Item) : Decidable (Leased state item) :=
  inferInstanceAs (Decidable (_ = true))

def oneLease (item : Item) (lease : WorkLease) (n : Nat) (id : String) (entry : IndexEntry) :
    Store String Stored :=
  (Store.empty.put item.leaseKey (.lease lease)).put (indexBucketKey n) (.bucket [(id, entry)])

section

variable {item other : Item} {lease : WorkLease} {n m : Nat} {id : String} {entry : IndexEntry}

theorem bucketAt_oneLease (small : n < indexBucketCount) (less : m < indexBucketCount) :
    bucketAt (valueOf (oneLease item lease n id entry)) m = if m = n then [(id, entry)] else [] := by
  by_cases same : m = n
  · rw [if_pos same, same, oneLease, bucketAt_put_same]
    rfl
  · have different : indexBucketKey m ≠ indexBucketKey n := fun key =>
      same (List.inj_on_of_nodup_map bucketKeys_nodup (List.mem_range.mpr less)
        (List.mem_range.mpr small) key)
    have apart : indexBucketKey m ≠ item.leaseKey := fun key =>
      leaseKey_ne_bucketKey item.1 item.2 ⟨m, key.symm⟩
    rw [if_neg same, oneLease, bucketAt_put_other different, bucketAt, valueOf_put,
      Function.update_of_ne apart]
    rfl

theorem leased_oneLease : Leased (valueOf (oneLease item lease n id entry)) other ↔
    other.leaseKey = item.leaseKey ∧ lease.state = .leased := by
  rw [Leased, oneLease, valueOf_put_bucket, valueOf_put]
  by_cases same : other.leaseKey = item.leaseKey
  · rw [same, Function.update_self, Option.bind_some, Stored.leased, Stored.asLease,
      Option.filter_some]
    cases lease.state <;> simp
  · rw [Function.update_of_ne same]
    exact ⟨fun impossible => (Bool.false_ne_true impossible).elim, fun found => absurd found.1 same⟩

theorem oneEntryEach_oneLease (bucket : indexBucketFor item.1 item.2 indexBucketCount = n)
    (names : lease.state = .leased → entry.item.leaseKey = item.leaseKey) :
    OneEntryEach (valueOf (oneLease item lease n id entry)) := by
  intro other leased
  obtain ⟨same, state⟩ := leased_oneLease.mp leased
  have sameBucket : indexBucketFor other.1 other.2 indexBucketCount = n := by
    rw [← bucket, indexBucketFor, indexBucketFor]
    exact congrArg (fun key => if indexBucketCount = 0 then 0 else sha1 key % indexBucketCount) same
  have small : n < indexBucketCount := by
    rw [← bucket, indexBucketFor, if_neg (by decide)]
    exact Nat.mod_lt _ (by decide)
  refine ⟨id, fun m found => ?_⟩
  rw [sameBucket]
  constructor
  · rintro ⟨less, next, member, _⟩
    rw [bucketAt_oneLease small less] at member
    split at member
    · next here => exact ⟨here, (Prod.mk.inj (List.mem_singleton.mp member)).1⟩
    · cases member
  · rintro ⟨rfl, rfl⟩
    refine ⟨small, entry, ?_, (names state).trans same.symm⟩
    rw [bucketAt_oneLease small small, if_pos rfl]
    exact List.mem_singleton_self _

theorem wellFiled_oneLease (small : n < indexBucketCount)
    (filed : id = entry.item.entryId ∧ entry.isNamed = true) :
    WellFiled (valueOf (oneLease item lease n id entry)) where
  keys m less := by
    rw [bucketAt_oneLease small less]
    split
    · exact List.nodup_singleton id
    · exact List.nodup_nil
  filed m less other next member := by
    rw [bucketAt_oneLease small less] at member
    split at member
    · cases List.mem_singleton.mp member
      exact filed
    · cases member

theorem unambiguous_oneLease (small : n < indexBucketCount) :
    Unambiguous (valueOf (oneLease item lease n id entry)) [entry.item] := by
  have only : ∀ other ∈ [entry.item] ++ indexedItems (valueOf (oneLease item lease n id entry))
      (List.range indexBucketCount), other = entry.item := by
    intro other member
    rcases List.mem_append.mp member with listed | indexed
    · exact List.mem_singleton.mp listed
    · obtain ⟨m, less, _, next, stored, _, rfl⟩ := mem_indexedItems.mp indexed
      rw [bucketAt_oneLease small less] at stored
      split at stored
      · cases List.mem_singleton.mp stored
        rfl
      · cases stored
  intro first left second right _
  rw [only first left, only second right]

end

def abLease : WorkLease :=
  { sourceKey := "a", uid := "b", state := .leased, owner := "w", leaseExpiry := some 0 }

def expiredStore : Store String Stored := oneLease ("a", "b") abLease 57 "a|b" ⟨"a", "b", some 0⟩

theorem sweeps_agree_expired : Leased (valueOf expiredStore) ("a", "b") ∧
    SweepsAgree (fun _ => false) 10 [("a", "b")] expiredStore :=
  ⟨by decide +kernel, sweeps_agree (fun _ => false) 10 [("a", "b")] expiredStore
    (oneEntryEach_oneLease (by decide +kernel) fun _ => rfl) (List.nodup_singleton _)
    (fun _ leased => ⟨("a", "b"), List.mem_singleton_self _, (leased_oneLease.mp leased).1.symm⟩)
    (wellFiled_oneLease (by decide) ⟨by decide, by decide⟩) (unambiguous_oneLease (by decide))⟩

/-! ### Stores on which the sweeps part -/

/-- A lease in the pool, and an entry without a source key. -/
def unnamedStore : Store String Stored := oneLease ("a", "b") {} 57 "|x" ⟨"", "x", none⟩

/-- An expired lease whose entry has another id than its own. -/
def misfiledStore : Store String Stored := oneLease ("a", "b") abLease 57 "id" ⟨"a", "b", some 0⟩

/-- A running lease whose key two pairs share. -/
def sharedStore : Store String Stored :=
  oneLease ("a", "b/c") { abLease with uid := "b/c", leaseExpiry := none } 20 "a|b/c"
    ⟨"a", "b/c", none⟩

/-- The index names what is not leased, twice, and one lease is counted twice. -/
theorem sweeps_part :
    (OneEntryEach (valueOf unnamedStore) ∧ ([] : List Item).Nodup ∧
      Covers (valueOf unnamedStore) [] ∧
      ¬ SweepsAgree (fun _ => false) 10 [] unnamedStore) ∧
    (OneEntryEach (valueOf misfiledStore) ∧ [("a", "b")].Nodup ∧
      Covers (valueOf misfiledStore) [("a", "b")] ∧
      ¬ SweepsAgree (fun _ => false) 10 [("a", "b")] misfiledStore) ∧
    (OneEntryEach (valueOf sharedStore) ∧ [("a", "b/c"), ("a/b", "c")].Nodup ∧
      Covers (valueOf sharedStore) [("a", "b/c"), ("a/b", "c")] ∧
      ¬ SweepsAgree (fun _ => false) 10 [("a", "b/c"), ("a/b", "c")] sharedStore) := by
  have listed : ∀ {answer : Query → Bool} {candidates : List Item} {store : Store String Stored}
      {item : Item} {id : String} {entry : IndexEntry},
      (57 < indexBucketCount ∧ (id, entry) ∈ bucketAt (valueOf (reapedIndexed answer 10 store false).2) 57 ∧
        entry.item.leaseKey = item.leaseKey) →
      ¬ Leased (valueOf (reapedIndexed answer 10 store false).2) item →
      ¬ SweepsAgree answer 10 candidates store := by
    intro answer candidates store item id entry entered unleased agree
    exact unleased ((agree.index item).mp ⟨57, id, entered.1, entry, entered.2⟩)
  refine ⟨⟨?_, List.nodup_nil, ?_, ?_⟩, ⟨?_, List.nodup_singleton _, ?_, ?_⟩, ?_, ?_, ?_, ?_⟩
  · exact oneEntryEach_oneLease (by decide +kernel) fun impossible => by cases impossible
  · intro item leased
    cases (leased_oneLease.mp leased).2
  · exact @listed _ _ _ ("", "x") "|x" ⟨"", "x", none⟩ (by decide +kernel) (by decide +kernel)
  · exact oneEntryEach_oneLease (by decide +kernel) fun _ => rfl
  · exact fun _ leased => ⟨("a", "b"), List.mem_singleton_self _, (leased_oneLease.mp leased).1.symm⟩
  · exact @listed _ _ _ ("a", "b") "id" ⟨"a", "b", some 0⟩ (by decide +kernel) (by decide +kernel)
  · exact oneEntryEach_oneLease (by decide +kernel) fun _ => rfl
  · decide
  · exact fun _ leased => ⟨("a", "b/c"), List.mem_cons_self, (leased_oneLease.mp leased).1.symm⟩
  · intro agree
    exact absurd agree.counts (by decide +kernel)

end CityPods.WorkLeases
