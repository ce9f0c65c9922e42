import CityPods.Compute.Deferred

/-! # The registry keeps newer records

What every change of the registry respects, each call's locked part checked
alone, and what follows for any number of calls side by side.
-/

namespace CityPods.Compute

open Foundation
open Foundation.LockedRecords (Alone Duty Deletion Keeps Shrinks Access)
open Foundation.Tasks (Config Event Run Worker Conduct)

namespace Deferred

abbrev Records := Store String Body

/-! ## Keys -/

section

variable (settings : Settings) (recipeHash : String) {data : PyVal}

theorem indexKeys_of_not_pending (other : field data "status" ≠ .str "pending") :
    indexKeys settings data recipeHash = [] := by
  simp [indexKeys, indexModels, other]

/-- Neither a pointer nor the audit is the record itself. -/
theorem underscore_ne_deferredKey (rest : String) :
    "state/llm_deferred_" ++ rest ≠ deferredKey recipeHash := by
  have spelled : deferredKey recipeHash = "state/llm_deferred/" ++ (recipeHash ++ ".json") := by
    rw [← String.append_assoc]
    rfl
  rw [spelled]
  intro same
  have chars := congrArg (fun key => key.toList.take 19) same
  simp at chars

theorem deferredFailureKey_spelled : deferredFailureKey recipeHash =
    "state/llm_deferred_" ++ ("failures/" ++ recipeHash ++ ".json") := by
  rw [← String.append_assoc, ← String.append_assoc]
  rfl

theorem deferredFailureKey_ne : deferredFailureKey recipeHash ≠ deferredKey recipeHash := by
  rw [deferredFailureKey_spelled]
  exact underscore_ne_deferredKey recipeHash _

variable {key : String}

theorem pointer_of_mem (member : key ∈ indexKeys settings data recipeHash) :
    ∃ rest, key = "state/llm_deferred_" ++ ("index/" ++ rest) := by
  have modelKey (model : String) : s!"{pendingPrefix}{model}/{recipeHash}.json" =
      "state/llm_deferred_" ++ ("index/" ++ ("pending/" ++ model ++ "/" ++ recipeHash ++ ".json")) := by
    simp only [← String.append_assoc]
    rfl
  have refKey (ref : String) : s!"{v2RefPrefix}{ref}.json" =
      "state/llm_deferred_" ++ ("index/" ++ ("v2-ref/" ++ ref ++ ".json")) := by
    simp only [← String.append_assoc]
    rfl
  have reconcileKey : s!"{reconcilePrefix}{recipeHash}.json" =
      "state/llm_deferred_" ++ ("index/" ++ ("reconcile/" ++ recipeHash ++ ".json")) := by
    simp only [← String.append_assoc]
    rfl
  simp only [indexKeys] at member
  split at member
  · obtain ⟨model, _, rfl⟩ := List.mem_map.mp member
    exact ⟨_, modelKey model⟩
  · split at member <;> rcases List.mem_append.mp member with first | last
    · obtain ⟨model, _, rfl⟩ := List.mem_map.mp first
      exact ⟨_, modelKey model⟩
    · exact ⟨_, (List.mem_singleton.mp last).trans (refKey _)⟩
    · obtain ⟨model, _, rfl⟩ := List.mem_map.mp first
      exact ⟨_, modelKey model⟩
    · exact ⟨_, (List.mem_singleton.mp last).trans reconcileKey⟩

variable {other : String}

theorem ne_deferredKey_of_mem
    (member : key ∈ indexKeys settings data other) : key ≠ deferredKey recipeHash := by
  obtain ⟨rest, rfl⟩ := pointer_of_mem settings other member
  exact underscore_ne_deferredKey recipeHash _

theorem ne_failureKey_of_mem (member : key ∈ indexKeys settings data recipeHash) :
    key ≠ deferredFailureKey recipeHash := by
  obtain ⟨rest, rfl⟩ := pointer_of_mem settings recipeHash member
  rw [deferredFailureKey_spelled]
  intro same
  have chars := congrArg (fun key => key.toList.take 20) same
  simp at chars

/-! ## The duty -/

def Recorded (store : Records) (data : PyVal) : Prop :=
  ∃ etag, store.object (deferredKey recipeHash) = some (.json data, etag)

def Indexed (store : Records) : Prop :=
  ∀ data, Recorded recipeHash store data → field data "status" = .str "pending" →
    ∀ key ∈ indexKeys settings data recipeHash, (store.object key).isSome = true

def KeepsResult (store after : Records) : Prop :=
  ∀ data later, Recorded recipeHash store data → field data "status" = .str "completed" →
    Recorded recipeHash after later → field later "status" ≠ .str "pending"

/-- A deletion of the record removes what its caller has judged, or nothing. -/
def Honest (deletion : Deletion String Body) : Prop :=
  deletion.key = deferredKey recipeHash →
    deletion.removed = none ∨ deletion.removed = deletion.judged

/-- Only writes of pointers do not fail. -/
def Fallible (op : LockedRecords.Op String Body) : Prop :=
  ∀ key value, op = .put key value → key = deferredKey recipeHash ∨
    key = deferredFailureKey recipeHash

variable {settings recipeHash} {store after : Records}

theorem Recorded.unique {first second : PyVal} (recorded : Recorded recipeHash store first)
    (also : Recorded recipeHash store second) : first = second := by
  obtain ⟨_, present⟩ := recorded
  obtain ⟨_, stored⟩ := also
  cases present.symm.trans stored
  rfl

theorem Recorded.of_object_eq (recorded : Recorded recipeHash after data)
    (same : after.object (deferredKey recipeHash) = store.object (deferredKey recipeHash)) :
    Recorded recipeHash store data := by
  obtain ⟨etag, present⟩ := recorded
  exact ⟨etag, same ▸ present⟩

theorem keepsResult_of_object_eq
    (same : after.object (deferredKey recipeHash) = store.object (deferredKey recipeHash)) :
    KeepsResult recipeHash store after := by
  intro data later recorded completed also pending
  cases recorded.unique (also.of_object_eq same)
  rw [completed] at pending
  exact absurd pending (by decide)

variable (settings recipeHash)

def duty : Duty String Body where
  sane := Indexed settings recipeHash
  moves := KeepsResult recipeHash
  honest := Honest recipeHash
  fallible := Fallible recipeHash
  stays _ := keepsResult_of_object_eq rfl

variable {settings recipeHash}

/-- Another object is written. -/
theorem Indexed.put_other (indexed : Indexed settings recipeHash store)
    (other : key ≠ deferredKey recipeHash) (value : Body) :
    Indexed settings recipeHash (store.put key value) := by
  intro data recorded pending pointer member
  have before := recorded.of_object_eq (store.put_object_other value other.symm)
  by_cases same : pointer = key
  · subst same
    rw [Store.put_object_same]
    rfl
  · rw [Store.put_object_other store value same]
    exact indexed data before pending pointer member

theorem Indexed.delete_other (indexed : Indexed settings recipeHash store)
    (other : key ≠ deferredKey recipeHash)
    (stale : ∀ data, Recorded recipeHash store data → key ∉ indexKeys settings data recipeHash) :
    Indexed settings recipeHash (store.delete key) := by
  intro data recorded pending pointer member
  have before := recorded.of_object_eq (store.delete_object_other other.symm)
  have different : pointer ≠ key := by
    rintro rfl
    exact stale data before member
  rw [Store.delete_object_other store different]
  exact indexed data before pending pointer member

theorem not_recorded_delete (data : PyVal) :
    ¬ Recorded recipeHash (store.delete (deferredKey recipeHash)) data := by
  rintro ⟨etag, present⟩
  rw [Store.delete_object_same] at present
  cases present

/-! ## Alone with the record -/

variable {keys : List String}

theorem deletePointerKeys_alone (others : ∀ key ∈ keys, key ≠ deferredKey recipeHash)
    (stale : ∀ key ∈ keys, ∀ data, Recorded recipeHash store data →
      key ∉ indexKeys settings data recipeHash) :
    Alone (duty settings recipeHash) (fun _ _ => True) (deletePointerKeys keys).run store := by
  induction keys generalizing store with
  | nil => trivial
  | cons key rest induction =>
      have other := others key List.mem_cons_self
      have unchanged := store.delete_object_other other.symm
      refine ⟨fun indexed => indexed.delete_other other (stale key List.mem_cons_self),
        keepsResult_of_object_eq unchanged, fun same => absurd same other, ?_, fun _ => ?_⟩
      · refine induction (fun key member => others key (List.mem_cons_of_mem _ member)) ?_
        intro key member data recorded
        exact stale key (List.mem_cons_of_mem _ member) data (recorded.of_object_eq unchanged)
      · exact induction (fun key member => others key (List.mem_cons_of_mem _ member))
          fun key member => stale key (List.mem_cons_of_mem _ member)

theorem removeRecord_alone (data : PyVal) :
    Alone (duty settings recipeHash) (fun _ _ => True)
      (removeRecord settings (deferredKey recipeHash) (store.object (deferredKey recipeHash)) data
        recipeHash).run store := by
  refine LockedRecords.alone_delete ?_ ?_ (fun _ => .inr rfl) ?_ trivial
  · exact fun _ data recorded => absurd recorded (not_recorded_delete data)
  · exact fun data later _ _ also => absurd also (not_recorded_delete later)
  · refine deletePointerKeys_alone (fun key member => ne_deferredKey_of_mem _ _ member) ?_
    exact fun key member data recorded => absurd recorded (not_recorded_delete data)

/-- What writing pointers leaves: the record, and every object that was there. -/
structure Extends (recipeHash : String) (store after : Records) : Prop where
  record : after.object (deferredKey recipeHash) = store.object (deferredKey recipeHash)
  present : ∀ key, (store.object key).isSome = true → (after.object key).isSome = true

theorem writePointerKeys_alone (others : ∀ key ∈ keys, key ≠ deferredKey recipeHash)
    (pointers : ∀ key ∈ keys, key ≠ deferredFailureKey recipeHash) :
    Alone (duty settings recipeHash)
      (fun outcome later => outcome = .ok () ∧ Extends recipeHash store later ∧
        ∀ key ∈ keys, (later.object key).isSome = true)
      (writePointerKeys recipeHash keys).run store := by
  induction keys generalizing store with
  | nil => exact ⟨rfl, ⟨rfl, fun _ => id⟩, fun key member => by cases member⟩
  | cons key rest induction =>
      have other := others key List.mem_cons_self
      have unchanged (value : Body) := store.put_object_other value other.symm
      refine ⟨fun indexed => indexed.put_other other _, keepsResult_of_object_eq (unchanged _), ?_,
        fun fallible => ?_⟩
      · refine (induction (fun key member => others key (List.mem_cons_of_mem _ member))
          (fun key member => pointers key (List.mem_cons_of_mem _ member))).weaken ?_
        rintro outcome later ⟨done, extends_, written⟩
        have kept (pointer : String) (present : pointer = key ∨
            (store.object pointer).isSome = true) : (later.object pointer).isSome = true := by
          apply extends_.present
          by_cases same : pointer = key
          · rw [same, Store.put_object_same]
            rfl
          · rw [Store.put_object_other _ _ same]
            exact present.resolve_left same
        refine ⟨done, ⟨extends_.record.trans (unchanged _), fun pointer present =>
          kept pointer (.inr present)⟩, fun pointer member => ?_⟩
        rcases List.mem_cons.mp member with same | member
        · exact kept pointer (.inl same)
        · exact written pointer member
      · rcases fallible key _ rfl with same | same
        · exact absurd same other
        · exact absurd same (pointers key List.mem_cons_self)

theorem recorded_of_mapping {value : PyVal}
    (read : valueOf (store.object (deferredKey recipeHash)) = value) (known : value ≠ .none) :
    Recorded recipeHash store value := by
  cases found : store.object (deferredKey recipeHash) with
  | none => exact absurd (read ▸ (by rw [found]; rfl)) known
  | some object =>
      obtain ⟨body, etag⟩ := object
      cases body with
      | json stored =>
          rw [found] at read
          exact ⟨etag, found.trans (by rw [← read]; rfl)⟩
      | malformed => exact absurd (read ▸ (by rw [found]; rfl)) known

theorem value_of_recorded (recorded : Recorded recipeHash store data) :
    valueOf (store.object (deferredKey recipeHash)) = data := by
  obtain ⟨etag, present⟩ := recorded
  rw [present]
  rfl

theorem field_set_other (record : Dict String PyVal) {name : String} (value : PyVal)
    (different : other ≠ name) :
    field (.dict (record.set name value)) other = field (.dict record) other :=
  congrArg (fun found => found.getD .none) (record.get?_set_other value different)

theorem nextRecord_status (existing : PyVal) (result : Job) (clock : Int)
    (recovery : Option PyVal) : field (nextRecord settings existing result clock recovery) "status" =
      .str (if result.isHandle then "pending" else "completed") := by
  rw [nextRecord, field_set_other _ _ (by decide)]
  cases result with
  | result result => rfl
  | handle handle =>
      cases recovery with
      | some context => exact field_set_other _ context (by decide)
      | none =>
          simp only [withRecovery]
          split
          · rw [field_set_other _ _ (by decide)]
            rfl
          · rfl

variable {α : Type}

theorem alone_readJson {promise : Except Error α → Records → Prop}
    {rest : PyVal × Option (Body × ETag) → Calls α}
    (found : Alone (duty settings recipeHash) promise
      (rest (valueOf (store.object key), store.object key)).run store)
    (failed : promise (.error .storage) store) :
    Alone (duty settings recipeHash) promise (readJson key >>= rest).run store :=
  ⟨found, failed⟩

/-- The order of a write: the new pointers, the record, the stale pointers. -/
theorem replace_alone {oldKeys newKeys : List String} {record : PyVal}
    (named : indexKeys settings record recipeHash = newKeys)
    (others : ∀ key ∈ oldKeys, key ≠ deferredKey recipeHash)
    (old : ∀ later, Extends recipeHash store later → Indexed settings recipeHash later →
      ∀ key ∈ oldKeys, (later.object key).isSome = true)
    (newer : ∀ data, Recorded recipeHash store data → field data "status" = .str "completed" →
      field record "status" ≠ .str "pending") :
    Alone (duty settings recipeHash) (fun _ _ => True) (do
      writePointerKeys recipeHash (newKeys.filter (· ∉ oldKeys))
      writeJson (deferredKey recipeHash) record
      deletePointerKeys (oldKeys.filter (· ∉ newKeys)) : Calls Unit).run store := by
  have recorded {later : Records} {data : PyVal}
      (also : Recorded recipeHash (later.put (deferredKey recipeHash) (.json record)) data) :
      data = record := by
    obtain ⟨etag, present⟩ := also
    cases (later.put_object_same _ _).symm.trans present
    rfl
  have pointers (key : String) (member : key ∈ newKeys.filter (· ∉ oldKeys)) :
      key ∈ indexKeys settings record recipeHash := named ▸ List.mem_of_mem_filter member
  refine LockedRecords.alone_bind (writePointerKeys_alone
    (fun key member => ne_deferredKey_of_mem _ _ (pointers key member))
    (fun key member => ne_failureKey_of_mem _ _ (pointers key member))) ?_ fun _ _ _ => trivial
  rintro _ later ⟨_, extends_, written⟩
  refine LockedRecords.alone_put ?_ ?_ ?_ trivial
  · intro indexed data also _ key member
    rw [recorded also, named] at member
    have apart : key ≠ deferredKey recipeHash := ne_deferredKey_of_mem _ _ (named ▸ member)
    rw [Store.put_object_other later _ apart]
    by_cases known : key ∈ oldKeys
    · exact old later extends_ indexed key known
    · exact written key (List.mem_filter.mpr ⟨member, by simpa using known⟩)
  · intro data after before completed also
    rw [recorded also]
    exact newer data (before.of_object_eq extends_.record) completed
  · refine deletePointerKeys_alone (fun key member => others key (List.mem_of_mem_filter member)) ?_
    intro key member data also
    rw [recorded also, named]
    simpa using (List.mem_filter.mp member).2

theorem writeLocked_alone (result : Job) (clock : Int) (recovery : Option PyVal) :
    Alone (duty settings recipeHash) (fun _ _ => True)
      (writeLocked settings recipeHash result clock recovery).run store := by
  refine alone_readJson ?_ trivial
  generalize read : valueOf (store.object (deferredKey recipeHash)) = existing
  by_cases completed : (field existing "status" = .str "completed" && result.isHandle) = true
  · dsimp only
    rw [if_pos completed]
    trivial
  · dsimp only
    rw [if_neg completed]
    have status : field (nextRecord settings existing result clock recovery) "status" = _ :=
      nextRecord_status existing result clock recovery
    refine replace_alone rfl ?_ ?_ ?_
    · intro key member
      split at member
      · exact ne_deferredKey_of_mem _ _ member
      · cases member
    · intro later extends_ indexed key member
      split at member
      · next mapping =>
        have known : Recorded recipeHash store existing :=
          recorded_of_mapping read (by rintro rfl; cases mapping)
        have still : Recorded recipeHash later existing :=
          known.of_object_eq extends_.record.symm
        by_cases pending : field existing "status" = .str "pending"
        · exact indexed existing still pending key member
        · rw [indexKeys_of_not_pending settings recipeHash pending] at member
          cases member
      · cases member
    · intro data known done
      rw [← read, value_of_recorded known] at completed
      rw [status]
      cases handle : result.isHandle with
      | true => simp [done, handle] at completed
      | false => decide

theorem removed_alone (data : PyVal) (result : α) :
    Alone (duty settings recipeHash) (fun _ _ => True) (do
      removeRecord settings (deferredKey recipeHash) (store.object (deferredKey recipeHash)) data
        recipeHash
      return result : Calls α).run store :=
  LockedRecords.alone_bind (removeRecord_alone data) (fun _ _ _ => trivial) fun _ _ _ => trivial

theorem discardLocked_alone (expectedRef : Option String) :
    Alone (duty settings recipeHash) (fun _ _ => True)
      (discardLocked settings recipeHash expectedRef).run store := by
  refine alone_readJson ?_ trivial
  dsimp only
  split
  · trivial
  · split
    · trivial
    · exact removed_alone _ _

theorem legacyLocked_alone (expected : JobHandle) (named : expected.recipeHash = recipeHash) :
    Alone (duty settings recipeHash) (fun _ _ => True) (legacyLocked settings expected).run
      store := by
  subst named
  refine alone_readJson ?_ trivial
  dsimp only
  split
  · trivial
  · exact removed_alone _ _

def SameRecord (recipeHash : String) (store later : Records) : Prop :=
  later.object (deferredKey recipeHash) = store.object (deferredKey recipeHash)

theorem writeAudit_alone (marker : PyVal) :
    Alone (duty settings recipeHash) (fun _ => SameRecord recipeHash store)
      (writeJson (deferredFailureKey recipeHash) marker).run store := by
  have other := deferredFailureKey_ne recipeHash
  have unchanged := store.put_object_other (.json marker : Body) other.symm
  exact ⟨fun indexed => indexed.put_other other _, keepsResult_of_object_eq unchanged, unchanged,
    fun _ => rfl⟩

theorem auditInvalid_alone (task : String) (data : PyVal) (failure : Failure) :
    Alone (duty settings recipeHash) (fun _ => SameRecord recipeHash store)
      (auditInvalid settings recipeHash task data failure).run store := by
  refine alone_readJson ?_ rfl
  dsimp only
  split
  · rfl
  · exact LockedRecords.alone_now fun clock => writeAudit_alone _

theorem completedLocked_alone (expected : JobResult) (failure : Option Failure) :
    Alone (duty settings recipeHash) (fun _ _ => True)
      (completedLocked settings recipeHash expected failure).run store := by
  refine alone_readJson ?_ trivial
  dsimp only
  split
  · trivial
  · split
    · trivial
    · cases failure with
      | none => exact removed_alone _ _
      | some failure =>
          refine LockedRecords.alone_bind (auditInvalid_alone expected.task _ failure) ?_
            fun _ _ _ => trivial
          intro _ later same
          rw [← show later.object _ = store.object _ from same]
          exact removed_alone _ _

variable {snapshot : List SnapshotEntry}

theorem mem_of_marked {recipeHash : String} {deleted : Bool} {others : List SnapshotEntry}
    {entry : SnapshotEntry}
    (marked : markTerminalFailure recipeHash deleted snapshot = (some entry, others)) :
    entry ∈ snapshot := by
  induction snapshot generalizing others with
  | nil => cases marked
  | cons head rest induction =>
      rw [markTerminalFailure] at marked
      split at marked
      · cases marked
        exact List.mem_cons_self
      · generalize later : markTerminalFailure recipeHash deleted rest = found at marked
        obtain ⟨first, remaining⟩ := found
        cases marked
        exact List.mem_cons_of_mem _ (induction later)

theorem failureLocked_alone {handle : JobHandle}
    (failure : Failure) (exhausted structural : Bool) (givenNow : Option Int)
    (named : handle.recipeHash = recipeHash)
    (keys : ∀ entry ∈ snapshot, entry.key = deferredKey recipeHash) :
    Alone (duty settings recipeHash) (fun _ _ => True)
      (failureLocked settings snapshot handle failure exhausted structural givenNow).run store := by
  subst named
  unfold failureLocked
  generalize found : markTerminalFailure handle.recipeHash true snapshot = first
  generalize markTerminalFailure handle.recipeHash false snapshot = second
  obtain ⟨marked, gone⟩ := first
  obtain ⟨_, kept⟩ := second
  cases marked with
  | none => trivial
  | some entry =>
      dsimp only
      rw [keys entry (mem_of_marked found)]
      split
      · trivial
      · split
        · trivial
        · refine alone_readJson ?_ trivial
          dsimp only
          split
          · trivial
          · have audited (clock : Int) : Alone (duty settings handle.recipeHash)
                (fun _ _ => True) (do
                  let read ← readJson (deferredFailureKey handle.recipeHash)
                  if structural && !isStructural failure then
                    throw (.valueError
                      "structural recovery requires typed reason and catalog identity")
                  else
                    let count := max 0 (priorCount read.1) + if structural then 0 else 1
                    writeJson (deferredFailureKey handle.recipeHash)
                      (.dict (failureMarker settings handle read.1 failure entry.data exhausted
                        structural count clock))
                    removeRecord settings (deferredKey handle.recipeHash)
                      (store.object (deferredKey handle.recipeHash)) entry.data handle.recipeHash
                    return (count, gone) : Calls (Int × List SnapshotEntry)).run store := by
              refine alone_readJson ?_ trivial
              dsimp only
              split
              · trivial
              · refine LockedRecords.alone_bind (writeAudit_alone _) ?_ fun _ _ _ => trivial
                intro _ later same
                rw [← show later.object _ = store.object _ from same]
                exact removed_alone _ _
            cases givenNow with
            | some clock => exact audited clock
            | none => exact LockedRecords.alone_now audited

/-! ## Without the lock -/

/-- A prune, while the record is away or as it was read. -/
abbrev Unlocked (settings : Settings) (recipeHash : String) {α : Type} (session : Calls α)
    (state : storage.State) : Prop :=
  session.Safe storage (LockedRecords.unlockedBargain (duty settings recipeHash))
    (fun _ _ => True) state

section

variable {α : Type} {state : storage.State}

theorem unlocked_same : (LockedRecords.unlockedBargain (duty settings recipeHash)).guarantee
    state state :=
  ⟨.refl _ state, rfl, fun _ => .inr rfl⟩

theorem unlocked_readJson {rest : PyVal × Option (Body × ETag) → Calls α}
    (found : ∀ later : storage.State, Unlocked settings recipeHash
      (rest (valueOf (later.store.object key), later.store.object key)) later) :
    Unlocked settings recipeHash (readJson key >>= rest) state := by
  intro later _ choice reply after _ answered
  cases choice <;> cases answered
  · exact ⟨unlocked_same, found later⟩
  · exact ⟨unlocked_same, fun _ _ => trivial⟩

theorem shrinks_delete (records : Records) (key : String) : Shrinks records (records.delete key) := by
  intro other
  by_cases same : other = key
  · exact .inl (same ▸ records.delete_object_same key)
  · exact .inr (records.delete_object_other same)

variable {rest : Unit → Calls α}

theorem unlocked_deletePointerKeys (others : ∀ key ∈ keys, key ≠ deferredKey recipeHash)
    (gone : state.store.object (deferredKey recipeHash) = none)
    (continued : ∀ later, Unlocked settings recipeHash (rest ()) later) :
    Unlocked settings recipeHash (deletePointerKeys keys >>= rest) state := by
  induction keys generalizing state with
  | nil => exact continued state
  | cons key later induction =>
      intro middle passed choice reply after _ answered
      have still : middle.store.object (deferredKey recipeHash) = none := by
        rcases passed rfl (deferredKey recipeHash) with none | same
        · exact none
        · exact same.trans gone
      cases choice <;> cases answered
      · have other := others key List.mem_cons_self
        have unchanged := middle.store.delete_object_other other.symm
        refine ⟨⟨⟨?_, keepsResult_of_object_eq unchanged, ?_⟩, rfl, shrinks_delete _ key⟩, ?_⟩
        · rintro _ data ⟨etag, present⟩
          cases (unchanged.trans still).symm.trans present
        · intro deletion member
          rcases List.mem_cons.mp member with rfl | earlier
          · exact .inr fun same => absurd same other
          · exact .inl earlier
        · exact induction (fun key member => others key (List.mem_cons_of_mem _ member))
            (unchanged.trans still)
      · exact ⟨unlocked_same, induction (fun key member => others key
          (List.mem_cons_of_mem _ member)) still⟩

/-- The record that is deleted is the one that was read, as nothing was written
in between. -/
theorem unlocked_removeRecord (data : PyVal) (other : String)
    (continued : ∀ later, Unlocked settings recipeHash (rest ()) later) :
    Unlocked settings recipeHash (removeRecord settings (deferredKey recipeHash)
      (state.store.object (deferredKey recipeHash)) data other >>= rest) state := by
  intro middle passed choice reply after _ answered
  have read := passed rfl (deferredKey recipeHash)
  cases choice <;> cases answered
  · refine ⟨⟨⟨?_, ?_, ?_⟩, rfl, shrinks_delete _ _⟩, ?_⟩
    · exact fun _ data recorded => absurd recorded (not_recorded_delete data)
    · exact fun data later _ _ also => absurd also (not_recorded_delete later)
    · intro deletion member
      rcases List.mem_cons.mp member with rfl | earlier
      · exact .inr fun _ => read
      · exact .inl earlier
    · exact unlocked_deletePointerKeys (fun key member => ne_deferredKey_of_mem _ _ member)
        (middle.store.delete_object_same _) continued
  · exact ⟨unlocked_same, fun _ _ => trivial⟩

theorem pruneEach_safe (clock ttl : Int) (snapshot : List SnapshotEntry)
    (keys : ∀ entry ∈ snapshot, entry.key = deferredKey recipeHash) (state : storage.State) :
    Unlocked settings recipeHash (pruneEach settings clock ttl snapshot) state := by
  induction snapshot generalizing state with
  | nil => exact Raising.safe_pure fun _ _ => trivial
  | cons entry rest induction =>
      have remaining := induction fun entry member => keys entry (List.mem_cons_of_mem _ member)
      have counted {β : Type} (state : storage.State)
          (result : Int × List SnapshotEntry → β) : Unlocked settings recipeHash
            (pruneEach settings clock ttl rest >>= fun found => pure (result found)) state :=
        (remaining state).bind (fun _ _ _ => Raising.safe_pure fun _ _ => trivial)
          fun _ _ _ _ _ => trivial
      have keep (state : storage.State) := counted state fun found => (found.1, entry :: found.2)
      unfold pruneEach
      dsimp only
      split
      · exact keep state
      · split
        · exact keep state
        · split
          · exact keep state
          · rw [keys entry List.mem_cons_self]
            refine unlocked_readJson fun later => ?_
            dsimp only
            split
            · exact keep later
            · exact unlocked_removeRecord _ _ fun last => counted last fun found =>
                (found.1 + 1, ⟨deferredKey recipeHash, entry.data, entry.decoded, true⟩ :: found.2)

end

end

end Deferred

end CityPods.Compute
