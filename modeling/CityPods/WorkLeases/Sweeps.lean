import CityPods.Foundation.Sequential
import CityPods.Foundation.Settling
import CityPods.WorkLeases.Writes

/-! # Two sweeps

One sweep probes the candidates of a backlog, the other the entries of the index.
Both judge a lease alike, so that they agree on every lease that both visit.
-/

namespace CityPods.WorkLeases

open Foundation

/-! ## What a sweep makes of a lease -/

abbrev Item := String × String

def Item.leaseKey (item : Item) : String := WorkLeases.leaseKey item.1 item.2

def Item.entryId (item : Item) : String := WorkLeases.entryId item.1 item.2

def IndexEntry.item (entry : IndexEntry) : Item := (entry.sourceKey, entry.uid)

/-- The objects of a store, without their ETags. -/
def valueOf (store : Store String Stored) (key : String) : Option Stored :=
  (store.object key).map Prod.fst

def Stored.leased (stored : Stored) : Option WorkLease :=
  stored.asLease.filter fun lease => lease.state == .leased

section

variable (answer : Query → Bool) (now : Int)

def sweepOf (item : Item) (lease : WorkLease) : Option (WorkLease × Outcome) :=
  lease.swept (answer (.artifactPresent item.1 item.2)) now

/-- What becomes of a lease, how the sweep counts it, and whose it was. -/
def sweepRules : Settling.Rules Item String Stored (Outcome × String) where
  key := Item.leaseKey
  active stored := stored.leased.isSome
  settle item stored :=
    (stored.leased.bind (sweepOf answer now item)).map fun swept => .lease swept.1
  outcome item stored :=
    (((stored.leased.bind (sweepOf answer now item)).map Prod.snd).getD .inFlight,
      (stored.leased.map WorkLease.owner).getD "")
  settled := by
    intro item stored after same
    obtain ⟨⟨settled, outcome⟩, swept, rfl⟩ := Option.map_eq_some_iff.mp same
    obtain ⟨lease, _, found⟩ := Option.bind_eq_some_iff.mp swept
    have unleased : settled.state ≠ .leased := WorkLease.swept_unleased found
    simp [Stored.leased, Stored.asLease, unleased]

def sweepRulesOf (dryRun : Bool) : Settling.Rules Item String Stored (Outcome × String) :=
  if dryRun then (sweepRules answer now).dry else sweepRules answer now

end

/-- The callback that a settled lease is owed. -/
def callbackOf (report : Outcome × String) : List Note :=
  match report.1 with
  | .completed => [.onCompleted report.2]
  | .requeued => [.onRequeued report.2]
  | _ => []

/-! ## One visit -/

def sweepItem (now : Int) (dryRun : Bool) (sourceKey uid : String) :
    LeaseProgram (Option Outcome) := do
  match ← readLease sourceKey uid with
  | (some existing, some etag) =>
      if existing.state != .leased then return none
      else
        let outcome ← settleLeased sourceKey uid existing etag now dryRun
        if outcome.isSettled then invokeReapCallback outcome existing.owner dryRun
        return some outcome
  | _ => return none

def SweepCounts.visit (counts : SweepCounts) (outcome : Option Outcome) : SweepCounts :=
  (outcome.map counts.count).getD counts

theorem reap_cons (now : Int) (dryRun : Bool) (item : Item) (rest : List Item)
    (counts : SweepCounts) :
    reap now dryRun (item :: rest) counts =
      (sweepItem now dryRun item.1 item.2).bind fun outcome =>
        reap now dryRun rest (counts.visit outcome) := by
  obtain ⟨sourceKey, uid⟩ := item
  rw [reap, sweepItem]
  simp only [Program.bind_eq_bind, Program.bind_assoc]
  refine congrArg _ (funext fun read => ?_)
  obtain ⟨_ | existing, _ | etag⟩ := read
  · rfl
  · rfl
  · rfl
  · dsimp only
    split
    · rfl
    · simp only [Program.bind_assoc]
      refine congrArg _ (funext fun outcome => ?_)
      cases dryRun <;> cases outcome <;> rfl

/-- An entry without a name is passed over. -/
def IndexEntry.isNamed (entry : IndexEntry) : Bool := !(entry.sourceKey == "" || entry.uid == "")

/-- Whether an entry stays in its bucket. -/
def stays (outcome : Option Outcome) : Bool := outcome.any fun outcome => !outcome.isSettled

def BucketSweep.visit (sweep : BucketSweep) (item : Item) (outcome : Option Outcome) :
    BucketSweep where
  counts := sweep.counts.visit outcome
  drop := if stays outcome then sweep.drop else sweep.drop ++ [item.entryId]
  seen := item :: sweep.seen

theorem sweepEntries_cons (now : Int) (dryRun : Bool) (entry : IndexEntry) (rest : List IndexEntry)
    (sweep : BucketSweep) :
    sweepEntries now dryRun (entry :: rest) sweep =
      if entry.isNamed then
        (sweepItem now dryRun entry.sourceKey entry.uid).bind fun outcome =>
          sweepEntries now dryRun rest (sweep.visit entry.item outcome)
      else sweepEntries now dryRun rest sweep := by
  rw [sweepEntries, sweepItem, IndexEntry.isNamed]
  cases entry.sourceKey == "" || entry.uid == "" with
  | true => rfl
  | false =>
      simp only [Program.bind_eq_bind, Program.bind_assoc, Bool.false_eq_true, if_false,
        Bool.not_false, if_true]
      refine congrArg _ (funext fun read => ?_)
      obtain ⟨_ | existing, _ | etag⟩ := read
      · rfl
      · rfl
      · rfl
      · dsimp only
        split
        · rfl
        · simp only [Program.bind_assoc]
          refine congrArg _ (funext fun outcome => ?_)
          cases dryRun <;> cases outcome <;> rfl

/-! ## Visits of a store that nothing else touches -/

section

variable {answer : Query → Bool} {now : Int} {dryRun : Bool} {store : Store String Stored}

@[simp] theorem valueOf_put (store : Store String Stored) (key : String) (value : Stored) :
    valueOf (store.put key value) = Function.update (valueOf store) key (some value) := by
  funext other
  by_cases same : other = key
  · rw [same, valueOf, Store.put_object_same, Function.update_self]
    rfl
  · rw [valueOf, Store.put_object_other store value same, Function.update_of_ne same]
    rfl

theorem sweepRulesOf_report (item : Item) :
    (sweepRulesOf answer now dryRun).report (valueOf store) item =
      (sweepRules answer now).report (valueOf store) item := by
  cases dryRun <;> rfl

structure Visits (answer : Query → Bool) (now : Int) (dryRun : Bool) (item : Item)
    (store : Store String Stored) (ran : Option Outcome × Store String Stored) (notes : List Note) :
    Prop where
  outcome : ran.1 = ((sweepRules answer now).report (valueOf store) item).map Prod.fst
  left : valueOf ran.2 = (sweepRulesOf answer now dryRun).visit (valueOf store) item
  untouched : dryRun = true → ran.2 = store
  notes : notes = if dryRun then [] else
    ((sweepRules answer now).report (valueOf store) item).toList.flatMap callbackOf

theorem exec_readLease (item : Item) (rest : Option WorkLease × Option ETag → LeaseProgram α) :
    ((readLease item.1 item.2).bind rest).exec answer store =
      (rest (match store.object item.leaseKey with
        | none => (none, none)
        | some (data, etag) => (data.asLease, some etag))).exec answer store := by
  show (Program.get item.leaseKey _).exec answer store = _
  rw [Program.exec_get]
  cases store.object item.leaseKey <;> rfl

theorem notes_readLease (item : Item) (rest : Option WorkLease × Option ETag → LeaseProgram α) :
    ((readLease item.1 item.2).bind rest).notes answer store =
      (rest (match store.object item.leaseKey with
        | none => (none, none)
        | some (data, etag) => (data.asLease, some etag))).notes answer store := by
  show (Program.get item.leaseKey _).notes answer store = _
  rw [Program.notes]
  cases store.object item.leaseKey <;> rfl

variable {item : Item}

theorem sweepItem_inactive (inactive : (valueOf store item.leaseKey).bind Stored.leased = none) :
    (sweepItem now dryRun item.1 item.2).exec answer store = (none, store) ∧
      (sweepItem now dryRun item.1 item.2).notes answer store = [] := by
  unfold sweepItem
  rw [Program.bind_eq_bind, exec_readLease, notes_readLease]
  cases found : store.object item.leaseKey with
  | none => exact ⟨rfl, rfl⟩
  | some object =>
      obtain ⟨data, etag⟩ := object
      rw [valueOf, found, Option.map_some, Option.bind_some, Stored.leased] at inactive
      dsimp only
      cases read : data.asLease with
      | none => exact ⟨rfl, rfl⟩
      | some lease =>
          rw [read, Option.filter_eq_none_iff] at inactive
          have unleased : (lease.state != .leased) = true := by
            simpa using inactive lease rfl
          dsimp only
          rw [if_pos unleased]
          exact ⟨rfl, rfl⟩

theorem sweepItem_active {data : Stored} {etag : ETag} {lease : WorkLease}
    (found : store.object item.leaseKey = some (data, etag)) (leased : data.leased = some lease) :
    ((sweepItem now dryRun item.1 item.2).exec answer store,
      (sweepItem now dryRun item.1 item.2).notes answer store) =
      match sweepOf answer now item lease with
      | none => ((some .inFlight, store), [])
      | some (settled, outcome) =>
          if dryRun then ((some outcome, store), [])
          else ((some outcome, store.put item.leaseKey (.lease settled)),
            callbackOf (outcome, lease.owner)) := by
  unfold sweepItem
  rw [Program.bind_eq_bind, exec_readLease, notes_readLease, found]
  obtain ⟨read, held⟩ := Option.filter_eq_some_iff.mp leased
  have state : ¬ (lease.state != .leased) = true := by simpa using held
  dsimp only
  rw [read]
  dsimp only
  rw [if_neg state]
  have admitted : store.admits (leaseKey item.1 item.2) (.ifMatch etag) = true := by
    have stored : store.object (leaseKey item.1 item.2) = some (data, etag) := found
    simp [Store.admits, stored]
  simp only [settleLeased, Program.bind_eq_bind, Program.askFor_bind, Program.bind_ask,
    Program.exec_ask, Program.notes]
  unfold sweepOf
  cases lease.swept (answer (.artifactPresent item.1 item.2)) now with
  | none => rfl
  | some swept =>
      obtain ⟨settled, outcome⟩ := swept
      cases dryRun with
      | true => cases outcome <;> rfl
      | false =>
          simp only [Bool.false_eq_true, if_false, Program.putCas_bind, Program.bind_put,
            Program.exec, Program.notes, if_pos admitted]
          cases outcome <;> rfl

theorem activeAt_of_leased {data : Stored} {lease : WorkLease}
    (stored : valueOf store item.leaseKey = some data) (leased : data.leased = some lease) :
    (sweepRules answer now).activeAt (valueOf store) item = some data := by
  have active : (sweepRules answer now).active data = true := by
    show data.leased.isSome = true
    rw [leased]
    rfl
  rw [Settling.Rules.activeAt]
  show (valueOf store item.leaseKey).filter _ = _
  rw [stored, Option.filter_some, if_pos active]

theorem activeAt_of_unleased (unleased : (valueOf store item.leaseKey).bind Stored.leased = none) :
    (sweepRules answer now).activeAt (valueOf store) item = none := by
  rw [Settling.Rules.activeAt, Option.filter_eq_none_iff]
  intro data stored active
  have leased : data.leased = none := by
    have stored : valueOf store item.leaseKey = some data := stored
    rw [stored] at unleased
    exact unleased
  have active : data.leased.isSome = true := active
  rw [leased] at active
  cases active

theorem sweepItem_visits (item : Item) :
    Visits answer now dryRun item store
      ((sweepItem now dryRun item.1 item.2).exec answer store)
      ((sweepItem now dryRun item.1 item.2).notes answer store) := by
  cases found : (valueOf store item.leaseKey).bind Stored.leased with
  | none =>
      have inactive : (sweepRules answer now).activeAt (valueOf store) item = none :=
        activeAt_of_unleased found
      have silent : (sweepRules answer now).report (valueOf store) item = none := by
        rw [Settling.Rules.report, inactive]
        rfl
      have ran : (sweepItem now dryRun item.1 item.2).exec answer store = (none, store) ∧
          (sweepItem now dryRun item.1 item.2).notes answer store = [] := sweepItem_inactive found
      rw [ran.1, ran.2]
      refine ⟨?_, ?_, fun _ => rfl, ?_⟩
      · rw [silent]
        rfl
      · cases dryRun with
        | true => exact Settling.Rules.dry_visit.symm
        | false => exact (Settling.Rules.visit_of_inactive inactive).symm
      · rw [silent]
        cases dryRun <;> rfl
  | some lease =>
      obtain ⟨_, value, leased⟩ := Option.bind_eq_some_iff.mp found
      obtain ⟨⟨data, etag⟩, stored, rfl⟩ := Option.map_eq_some_iff.mp value
      have active : (sweepRules answer now).activeAt (valueOf store) item = some data :=
        activeAt_of_leased value leased
      have report : (sweepRules answer now).report (valueOf store) item =
          some (((sweepOf answer now item lease).map Prod.snd).getD .inFlight, lease.owner) := by
        rw [Settling.Rules.report, active]
        show some (((data.leased.bind _).map _).getD _, _) = _
        rw [leased]
        rfl
      have settles : (sweepRules answer now).settle item data =
          (sweepOf answer now item lease).map fun swept => .lease swept.1 := by
        show (data.leased.bind _).map _ = _
        rw [leased]
        rfl
      have ran := @sweepItem_active answer now dryRun store item data etag lease stored leased
      cases swept : sweepOf answer now item lease with
      | none =>
          rw [swept] at ran report settles
          obtain ⟨ran, noted⟩ := Prod.mk.inj ran
          rw [ran, noted]
          refine ⟨?_, ?_, fun _ => rfl, ?_⟩
          · rw [report]
            rfl
          · cases dryRun with
            | true => exact Settling.Rules.dry_visit.symm
            | false =>
                show _ = (sweepRules answer now).visit (valueOf store) item
                rw [Settling.Rules.visit, active, Option.bind_some, settles]
                rfl
          · rw [report]
            cases dryRun <;> rfl
      | some settled =>
          obtain ⟨settled, outcome⟩ := settled
          rw [swept] at ran report settles
          cases dryRun with
          | true =>
              obtain ⟨ran, noted⟩ := Prod.mk.inj ran
              rw [ran, noted]
              refine ⟨?_, Settling.Rules.dry_visit.symm, fun _ => rfl, rfl⟩
              rw [report]
              rfl
          | false =>
              obtain ⟨ran, noted⟩ := Prod.mk.inj ran
              rw [ran, noted]
              refine ⟨?_, ?_, fun impossible => (Bool.false_ne_true impossible).elim, ?_⟩
              · rw [report]
                rfl
              · show _ = (sweepRules answer now).visit (valueOf store) item
                rw [Settling.Rules.visit, active, Option.bind_some, settles]
                exact valueOf_put store item.leaseKey (.lease settled)
              · rw [report]
                exact (List.append_nil _).symm

/-! ## Sweeps of a store that nothing else touches -/

def countAll (counts : SweepCounts) (reports : List (Option (Outcome × String))) : SweepCounts :=
  reports.foldl (fun counts report => counts.visit (report.map Prod.fst)) counts

structure Sweeps (answer : Query → Bool) (now : Int) (dryRun : Bool) (items : List Item)
    (counts : SweepCounts) (store : Store String Stored) (total : SweepCounts)
    (final : Store String Stored) (noted : List Note) : Prop where
  counted : total =
    countAll counts ((sweepRulesOf answer now dryRun).reports (valueOf store) items)
  left : valueOf final = (sweepRulesOf answer now dryRun).after (valueOf store) items
  untouched : dryRun = true → final = store
  notes : noted = if dryRun then [] else
    ((sweepRulesOf answer now dryRun).reports (valueOf store) items).reduceOption.flatMap callbackOf

variable {counts : SweepCounts}

theorem Sweeps.nil :
    Sweeps answer now dryRun [] counts store counts store [] where
  counted := rfl
  left := rfl
  untouched _ := rfl
  notes := by cases dryRun <;> rfl

variable {total : SweepCounts} {final : Store String Stored} {first later : List Note}

theorem Sweeps.cons {rest : List Item} {visited : Option Outcome × Store String Stored}
    (visit : Visits answer now dryRun item store visited first)
    (sweep : Sweeps answer now dryRun rest (counts.visit visited.1) visited.2 total final later) :
    Sweeps answer now dryRun (item :: rest) counts store total final (first ++ later) where
  counted := by
    rw [sweep.counted, visit.left, visit.outcome, Settling.Rules.reports, sweepRulesOf_report]
    rfl
  left := by rw [sweep.left, visit.left, Settling.Rules.after_cons]
  untouched dry := by rw [sweep.untouched dry, visit.untouched dry]
  notes := by
    rw [sweep.notes, visit.notes, visit.left, Settling.Rules.reports, sweepRulesOf_report]
    cases dryRun with
    | true => rfl
    | false =>
        cases (sweepRules answer now).report (valueOf store) item with
        | none => rfl
        | some report =>
            simp only [Bool.false_eq_true, if_false, Option.toList_some, List.reduceOption_cons_of_some,
              List.flatMap_cons, List.flatMap_nil, List.append_nil]

theorem reap_sweeps (items : List Item) (counts : SweepCounts) :
    Sweeps answer now dryRun items counts store
      ((reap now dryRun items counts).exec answer store).1
      ((reap now dryRun items counts).exec answer store).2
      ((reap now dryRun items counts).notes answer store) := by
  induction items generalizing counts store with
  | nil => exact .nil
  | cons item rest induction =>
      rw [reap_cons, Program.exec_bind, Program.notes_bind]
      exact .cons (sweepItem_visits item) (induction _)

/-! ## The sweep of one bucket -/

def itemsOf (entries : Entries) : List Item :=
  (entries.values.filter IndexEntry.isNamed).map IndexEntry.item

def droppedIds (items : List Item) (reports : List (Option (Outcome × String))) : List String :=
  ((items.zip reports).filter fun visited => !stays (visited.2.map Prod.fst)).map
    fun visited => visited.1.entryId

theorem droppedIds_cons (item : Item) (rest : List Item) (report : Option (Outcome × String))
    (reports : List (Option (Outcome × String))) :
    droppedIds (item :: rest) (report :: reports) =
      (if stays (report.map Prod.fst) then [] else [item.entryId]) ++ droppedIds rest reports := by
  rw [droppedIds, List.zip_cons_cons, List.filter_cons]
  cases stays (report.map Prod.fst) <;> rfl

theorem BucketSweep.visit_drop (sweep : BucketSweep) (item : Item) (outcome : Option Outcome) :
    (sweep.visit item outcome).drop =
      sweep.drop ++ if stays outcome then [] else [item.entryId] := by
  rw [BucketSweep.visit]
  cases stays outcome with
  | true => exact (List.append_nil _).symm
  | false => rfl

theorem sweepEntries_sweeps (entries : List IndexEntry) (sweep : BucketSweep) :
    Sweeps answer now dryRun ((entries.filter IndexEntry.isNamed).map IndexEntry.item) sweep.counts
        store ((sweepEntries now dryRun entries sweep).exec answer store).1.counts
        ((sweepEntries now dryRun entries sweep).exec answer store).2
        ((sweepEntries now dryRun entries sweep).notes answer store) ∧
      ((sweepEntries now dryRun entries sweep).exec answer store).1.drop = sweep.drop ++
        droppedIds ((entries.filter IndexEntry.isNamed).map IndexEntry.item)
          ((sweepRulesOf answer now dryRun).reports (valueOf store)
            ((entries.filter IndexEntry.isNamed).map IndexEntry.item)) := by
  induction entries generalizing sweep store with
  | nil => exact ⟨.nil, (List.append_nil _).symm⟩
  | cons entry rest induction =>
      rw [sweepEntries_cons]
      cases named : entry.isNamed with
      | false =>
          rw [List.filter_cons_of_neg (by rw [named]; exact Bool.false_ne_true),
            if_neg Bool.false_ne_true]
          exact induction sweep
      | true =>
          rw [List.filter_cons_of_pos named, if_pos rfl, Program.exec_bind, Program.notes_bind,
            List.map_cons]
          have visit : Visits answer now dryRun entry.item store
              ((sweepItem now dryRun entry.sourceKey entry.uid).exec answer store)
              ((sweepItem now dryRun entry.sourceKey entry.uid).notes answer store) :=
            sweepItem_visits entry.item
          obtain ⟨sweeps, drop⟩ := @induction
            ((sweepItem now dryRun entry.sourceKey entry.uid).exec answer store).2
            (sweep.visit entry.item
              ((sweepItem now dryRun entry.sourceKey entry.uid).exec answer store).1)
          refine ⟨.cons visit sweeps, ?_⟩
          rw [drop, visit.left, Settling.Rules.reports, sweepRulesOf_report, droppedIds_cons,
            ← visit.outcome, BucketSweep.visit_drop, List.append_assoc]

/-! ## The sweep of the index -/

def bucketAt (state : String → Option Stored) (n : Nat) : Entries :=
  entriesOf (state (indexBucketKey n))

def indexedItems (state : String → Option Stored) (buckets : List Nat) : List Item :=
  buckets.flatMap fun n => itemsOf (bucketAt state n)

/-- Alone, the first attempt lands. -/
theorem maintainIndex_exec (n : Nat) (mutate : Entries → Entries) (failure : Note) :
    (maintainIndex n mutate failure).exec answer store = ((), store.put (indexBucketKey n)
        (serializeIndexBucket (mutate (bucketAt (valueOf store) n)))) ∧
      (maintainIndex n mutate failure).notes answer store = [] := by
  have admitted : ∀ stored, store.object (indexBucketKey n) = stored →
      store.admits (indexBucketKey n) (writeCondition (stored.map Prod.snd)) = true := by
    rintro (_ | ⟨data, etag⟩) stored <;> simp [writeCondition, Store.admits, stored]
  have permitted := admitted _ rfl
  unfold maintainIndex indexMaxAttempts mutateIndexBucket loadIndexBucket
  simp only [Program.bind_eq_bind, Program.getBytes_bind, Program.bind_get, Program.bind_assoc,
    Program.exec_get, Program.notes]
  unfold bucketAt valueOf entriesOf
  cases stored : store.object (indexBucketKey n) with
  | none =>
      rw [stored, Option.map_none] at permitted
      simp only [Program.pure_eq_done, Program.bind_done, Program.putCas_bind, Program.exec,
        Program.notes]
      rw [if_pos permitted, if_pos permitted]
      exact ⟨rfl, rfl⟩
  | some object =>
      rw [stored, Option.map_some] at permitted
      simp only [Program.pure_eq_done, Program.bind_done, Program.putCas_bind, Program.exec,
        Program.notes]
      rw [if_pos permitted, if_pos permitted]
      exact ⟨rfl, rfl⟩

def sweepBucket (now : Int) (dryRun : Bool) (n : Nat) (counts : SweepCounts) (seen : List Item) :
    LeaseProgram BucketSweep := do
  let (entries, _) ← loadIndexBucket n
  let sweep ← sweepEntries now dryRun entries.values { counts := counts, seen := seen }
  if !sweep.drop.isEmpty && !dryRun then dropIndexEntries n sweep.drop
  return sweep

theorem sweepBuckets_cons (n : Nat) (buckets : List Nat) (counts : SweepCounts) (seen : List Item) :
    sweepBuckets now dryRun (n :: buckets) counts seen =
      (sweepBucket now dryRun n counts seen).bind fun sweep =>
        sweepBuckets now dryRun buckets sweep.counts sweep.seen := by
  rw [sweepBuckets, sweepBucket]
  simp only [Program.bind_eq_bind, Program.bind_assoc]
  refine congrArg _ (funext fun read => congrArg _ (funext fun sweep => ?_))
  cases !sweep.drop.isEmpty && !dryRun with
  | true =>
      rw [if_pos rfl, if_pos rfl, Program.bind_assoc]
      rfl
  | false => rfl

theorem loadIndexBucket_exec (n : Nat) (rest : Entries × Option ETag → LeaseProgram α) :
    ((loadIndexBucket n).bind rest).exec answer store =
        (rest (bucketAt (valueOf store) n, (store.object (indexBucketKey n)).map Prod.snd)).exec
          answer store ∧
      ((loadIndexBucket n).bind rest).notes answer store =
        (rest (bucketAt (valueOf store) n, (store.object (indexBucketKey n)).map Prod.snd)).notes
          answer store := by
  unfold loadIndexBucket bucketAt valueOf entriesOf
  simp only [Program.bind_eq_bind, Program.getBytes_bind, Program.bind_get, Program.exec_get,
    Program.notes]
  cases store.object (indexBucketKey n) <;> exact ⟨rfl, rfl⟩

def dropsOf (answer : Query → Bool) (now : Int) (state : String → Option Stored) (n : Nat) :
    List String :=
  droppedIds (itemsOf (bucketAt state n))
    ((itemsOf (bucketAt state n)).map ((sweepRules answer now).report state))

structure SweepsIndex (answer : Query → Bool) (now : Int) (dryRun : Bool) (buckets : List Nat)
    (counts : SweepCounts) (store : Store String Stored) (total : SweepCounts)
    (final : Store String Stored) (noted : List Note) : Prop where
  counted : total = countAll counts
    ((sweepRulesOf answer now dryRun).reports (valueOf store) (indexedItems (valueOf store) buckets))
  leases : ∀ item : Item, valueOf final item.leaseKey =
    (sweepRulesOf answer now dryRun).after (valueOf store) (indexedItems (valueOf store) buckets)
      item.leaseKey
  untouched : dryRun = true → final = store
  notes : noted = if dryRun then [] else
    ((sweepRulesOf answer now dryRun).reports (valueOf store)
      (indexedItems (valueOf store) buckets)).reduceOption.flatMap callbackOf
  pruned : dryRun = false → ∀ n ∈ buckets, ∀ entry,
    entry ∈ bucketAt (valueOf final) n ↔
      entry ∈ bucketAt (valueOf store) n ∧ entry.1 ∉ dropsOf answer now (valueOf store) n
  others : ∀ n, indexBucketKey n ∉ buckets.map indexBucketKey →
    bucketAt (valueOf final) n = bucketAt (valueOf store) n

theorem sweepRulesOf_apart {state : String → Option Stored} {items : List Item} :
    (sweepRulesOf answer now dryRun).Apart state items ↔ (sweepRules answer now).Apart state items := by
  cases dryRun <;> rfl

theorem bucketAt_put_same (n : Nat) (value : Stored) :
    bucketAt (valueOf (store.put (indexBucketKey n) value)) n = value.asEntries := by
  rw [bucketAt, valueOf_put, Function.update_self]
  rfl

variable {n : Nat}

theorem bucketAt_put_other {m : Nat} (different : indexBucketKey m ≠ indexBucketKey n)
    (value : Stored) :
    bucketAt (valueOf (store.put (indexBucketKey n) value)) m = bucketAt (valueOf store) m := by
  rw [bucketAt, valueOf_put, Function.update_of_ne different]
  rfl

theorem valueOf_put_bucket (n : Nat) (value : Stored) (item : Item) :
    valueOf (store.put (indexBucketKey n) value) item.leaseKey = valueOf store item.leaseKey := by
  rw [valueOf_put]
  exact Function.update_of_ne (fun same => leaseKey_ne_bucketKey item.1 item.2 ⟨n, same⟩) _ _

theorem Sweeps.buckets {items : List Item}
    {noted : List Note} (sweep : Sweeps answer now dryRun items counts store total final noted)
    (n : Nat) : bucketAt (valueOf final) n = bucketAt (valueOf store) n := by
  rw [bucketAt, sweep.left, Settling.Rules.after_other]
  · rfl
  · intro item _ same
    refine leaseKey_ne_bucketKey item.1 item.2 ⟨n, ?_⟩
    cases dryRun <;> exact same

theorem sweepBucket_sweeps (n : Nat) (counts : SweepCounts) (seen : List Item)
    (apart : (sweepRules answer now).Apart (valueOf store) (itemsOf (bucketAt (valueOf store) n))) :
    SweepsIndex answer now dryRun [n] counts store
      ((sweepBucket now dryRun n counts seen).exec answer store).1.counts
      ((sweepBucket now dryRun n counts seen).exec answer store).2
      ((sweepBucket now dryRun n counts seen).notes answer store) := by
  have single : indexedItems (valueOf store) [n] = itemsOf (bucketAt (valueOf store) n) :=
    List.append_nil _
  unfold sweepBucket
  rw [Program.bind_eq_bind, (loadIndexBucket_exec n _).1, (loadIndexBucket_exec n _).2]
  dsimp only
  rw [Program.bind_eq_bind, Program.exec_bind, Program.notes_bind]
  obtain ⟨sweeps, drop⟩ := @sweepEntries_sweeps answer now dryRun store
    (bucketAt (valueOf store) n).values { counts := counts, seen := seen }
  generalize (sweepEntries now dryRun (bucketAt (valueOf store) n).values
    { counts := counts, seen := seen }).exec answer store = ran at sweeps drop ⊢
  generalize (sweepEntries now dryRun (bucketAt (valueOf store) n).values
    { counts := counts, seen := seen }).notes answer store = noted at sweeps ⊢
  have dropped : dryRun = false → ran.1.drop = dropsOf answer now (valueOf store) n := by
    rintro rfl
    rw [drop, List.nil_append, dropsOf]
    exact congrArg _ (Settling.Rules.reports_eq apart)
  cases written : !ran.1.drop.isEmpty && !dryRun with
  | false =>
      rw [if_neg Bool.false_ne_true, Program.pure_eq_done, Program.exec_done]
      refine ⟨?_, ?_, sweeps.untouched, ?_, ?_, fun m _ => sweeps.buckets m⟩
      · rw [single]
        exact sweeps.counted
      · intro item
        rw [single]
        exact congrFun sweeps.left item.leaseKey
      · rw [single]
        exact (List.append_nil _).trans sweeps.notes
      · intro wet m member entry
        have nothing : dropsOf answer now (valueOf store) n = [] := by
          rw [← dropped wet]
          simpa [wet] using written
        rw [List.mem_singleton.mp member, sweeps.buckets, nothing]
        simp
  | true =>
      obtain ⟨_, wet⟩ := Bool.and_eq_true_iff.mp written
      obtain rfl : dryRun = false := by simpa using wet
      rw [if_pos rfl, Program.bind_eq_bind, Program.exec_bind, Program.notes_bind,
        dropIndexEntries, (maintainIndex_exec ..).1, (maintainIndex_exec ..).2, dropped rfl]
      refine ⟨?_, ?_, fun impossible => (Bool.false_ne_true impossible).elim, ?_, ?_, ?_⟩
      · rw [single]
        exact sweeps.counted
      · intro item
        rw [single]
        exact (valueOf_put_bucket ..).trans (congrFun sweeps.left item.leaseKey)
      · rw [single]
        exact (List.append_nil _).trans sweeps.notes
      · intro _ m member entry
        obtain rfl := List.mem_singleton.mp member
        show entry ∈ bucketAt (valueOf (ran.2.put _ _)) m ↔ _
        rw [bucketAt_put_same, sweeps.buckets]
        exact ((Dict.sortKeys_perm _).mem_iff).trans Dict.mem_foldl_erase
      · intro m other
        show bucketAt (valueOf (ran.2.put _ _)) m = _
        rw [bucketAt_put_other (by simpa using other), sweeps.buckets]

section

variable {n : Nat} {buckets : List Nat} {counts between : SweepCounts} {middle : Store String Stored}
  {noted : List Note}

theorem SweepsIndex.bucket (head : SweepsIndex answer now dryRun [n] counts store between middle noted)
    (distinct : ((n :: buckets).map indexBucketKey).Nodup) {m : Nat} (member : m ∈ buckets) :
    bucketAt (valueOf middle) m = bucketAt (valueOf store) m := by
  refine head.others m fun same => (List.nodup_cons.mp distinct).1 ?_
  rw [← List.mem_singleton.mp same]
  exact List.mem_map_of_mem member

theorem SweepsIndex.items (head : SweepsIndex answer now dryRun [n] counts store between middle noted)
    (distinct : ((n :: buckets).map indexBucketKey).Nodup) :
    indexedItems (valueOf middle) buckets = indexedItems (valueOf store) buckets :=
  List.flatMap_congr fun _ member => by rw [head.bucket distinct member]

theorem SweepsIndex.lease (head : SweepsIndex answer now dryRun [n] counts store between middle noted)
    (item : Item) : valueOf middle ((sweepRulesOf answer now dryRun).key item) =
      (sweepRulesOf answer now dryRun).after (valueOf store) (itemsOf (bucketAt (valueOf store) n))
        ((sweepRulesOf answer now dryRun).key item) := by
  have left := head.leases item
  rw [show indexedItems (valueOf store) [n] = itemsOf (bucketAt (valueOf store) n) from
    List.append_nil _] at left
  cases dryRun <;> exact left

theorem SweepsIndex.apart (head : SweepsIndex answer now dryRun [n] counts store between middle noted)
    (distinct : ((n :: buckets).map indexBucketKey).Nodup)
    (apart : (sweepRules answer now).Apart (valueOf store)
      (indexedItems (valueOf store) (n :: buckets))) :
    (sweepRules answer now).Apart (valueOf middle) (indexedItems (valueOf middle) buckets) := by
  rw [head.items distinct, ← @sweepRulesOf_apart answer now dryRun]
  have split : (sweepRulesOf answer now dryRun).Apart (valueOf store)
      (itemsOf (bucketAt (valueOf store) n) ++ indexedItems (valueOf store) buckets) :=
    sweepRulesOf_apart.mpr apart
  exact split.after.congr fun item _ => (head.lease item).symm

end

theorem SweepsIndex.cons {buckets : List Nat} {between : SweepCounts} {middle : Store String Stored}
    (distinct : ((n :: buckets).map indexBucketKey).Nodup)
    (apart : (sweepRules answer now).Apart (valueOf store)
      (indexedItems (valueOf store) (n :: buckets)))
    (head : SweepsIndex answer now dryRun [n] counts store between middle first)
    (rest : SweepsIndex answer now dryRun buckets between middle total final later) :
    SweepsIndex answer now dryRun (n :: buckets) counts store total final (first ++ later) := by
  obtain ⟨fresh, _⟩ := List.nodup_cons.mp distinct
  have here : indexedItems (valueOf store) [n] = itemsOf (bucketAt (valueOf store) n) :=
    List.append_nil _
  have split : indexedItems (valueOf store) (n :: buckets) =
      itemsOf (bucketAt (valueOf store) n) ++ indexedItems (valueOf store) buckets := rfl
  have sameItems := head.items distinct
  have reports : (sweepRulesOf answer now dryRun).reports (valueOf middle)
      (indexedItems (valueOf store) buckets) =
      (sweepRulesOf answer now dryRun).reports
        ((sweepRulesOf answer now dryRun).after (valueOf store)
          (itemsOf (bucketAt (valueOf store) n))) (indexedItems (valueOf store) buckets) :=
    Settling.Rules.reports_congr fun item _ => head.lease item
  refine ⟨?_, ?_, ?_, ?_, ?_, ?_⟩
  · rw [rest.counted, head.counted, here, sameItems, reports, split, Settling.Rules.reports_append]
    exact List.foldl_append.symm
  · intro item
    rw [rest.leases, sameItems, split, Settling.Rules.after_append]
    refine Settling.Rules.after_congr (fun item _ => head.lease item) ?_
    have lease := head.lease item
    cases dryRun <;> exact lease
  · intro dry
    rw [rest.untouched dry, head.untouched dry]
  · rw [rest.notes, head.notes, here, sameItems, reports, split, Settling.Rules.reports_append]
    cases dryRun with
    | true => rfl
    | false =>
        simp only [Bool.false_eq_true, if_false, List.reduceOption_append, List.flatMap_append]
  · intro wet m member entry
    rcases List.mem_cons.mp member with rfl | later
    · rw [rest.others m fresh]
      exact head.pruned wet m List.mem_cons_self entry
    · have sameDrops : dropsOf answer now (valueOf middle) m = dropsOf answer now (valueOf store) m := by
        rw [dropsOf, dropsOf, head.bucket distinct later]
        refine congrArg _ (List.map_congr_left fun item inside => ?_)
        subst wet
        exact (Settling.Rules.report_congr (head.lease item)).trans
          (Settling.Rules.report_after apart (List.mem_flatMap.mpr ⟨m, later, inside⟩))
      rw [rest.pruned wet m later, sameDrops, head.bucket distinct later]
  · intro m foreign
    rw [List.map_cons, List.mem_cons, not_or] at foreign
    rw [rest.others m foreign.2, head.others m (by simpa using foreign.1)]

theorem sweepBuckets_sweeps (buckets : List Nat) (counts : SweepCounts) (seen : List Item)
    (distinct : (buckets.map indexBucketKey).Nodup)
    (apart : (sweepRules answer now).Apart (valueOf store) (indexedItems (valueOf store) buckets)) :
    SweepsIndex answer now dryRun buckets counts store
      ((sweepBuckets now dryRun buckets counts seen).exec answer store).1.1
      ((sweepBuckets now dryRun buckets counts seen).exec answer store).2
      ((sweepBuckets now dryRun buckets counts seen).notes answer store) := by
  induction buckets generalizing counts seen store with
  | nil =>
      refine ⟨rfl, fun item => rfl, fun _ => rfl, ?_, fun _ n member => ?_, fun n _ => rfl⟩
      · cases dryRun <;> rfl
      · cases member
  | cons n rest induction =>
      rw [sweepBuckets_cons, Program.exec_bind, Program.notes_bind]
      have head := @sweepBucket_sweeps answer now dryRun store n counts seen
        (List.pairwise_append.mp apart).1
      exact .cons distinct apart head
        (induction _ _ (List.nodup_cons.mp distinct).2 (head.apart distinct apart))

end

end CityPods.WorkLeases
