import CityPods.WorkLeases.Writes

/-! # Completeness of the active-lease index

A held lease is listed in its own bucket, or a call in progress still owes the
entry. Lease writes and upserts keep this in every interleaving; an index write
that leaves out the entry of a lease that was claimed again does not.
-/

namespace CityPods.WorkLeases

open Foundation

def Listed (store : Store String Stored) (sourceKey uid : String) : Prop :=
  (entriesOf ((store.object (itemBucketKey sourceKey uid)).map Prod.fst)).contains
    (entryId sourceKey uid) = true

def Held (store : Store String Stored) (sourceKey uid : String) : Prop :=
  ∃ keySource keyUid lease etag,
    store.object (leaseKey keySource keyUid) = some (.lease lease, etag) ∧
      lease.state = .leased ∧ lease.sourceKey = sourceKey ∧ lease.uid = uid

def IndexComplete (store : Store String Stored) : Prop :=
  ∀ sourceKey uid, Held store sourceKey uid → Listed store sourceKey uid

/-- Some call in progress will still list the item. -/
abbrev EntryOwed (config : Config service) (sourceKey uid : String) : Prop :=
  config.Owed (Lists sourceKey uid) IndexFailure

/-! ## The steps of indexed runs -/

def Call.indexed : Call → Bool
  | .claim _ _ _ _ _ _ updateIndex => updateIndex
  | .renew _ _ _ _ _ updateIndex => updateIndex
  | .release _ _ _ _ _ updateIndex => updateIndex
  | .abandon _ _ _ _ updateIndex => updateIndex
  | .requeueFailed _ _ _ => false
  | .reap _ _ _ => false
  | .reapIndexed _ _ _ _ => true

/-- Only indexed calls start, and no index write runs out of attempts. -/
def indexedStep (config : Config service) : Step service → Bool
  | .tick _ => true
  | .start call => call.indexed
  | .run index _ =>
      match config.workers[index]? with
      | some ⟨_, .note message _⟩ => !decide (IndexFailure message)
      | _ => true

variable {config : Config service}

theorem unexcused_of_indexedStep {step : Step service}
    (permitted : indexedStep config step = true) : config.Unexcused IndexFailure step := by
  cases step with
  | tick now => trivial
  | start call => trivial
  | run index reply =>
      rintro ⟨call, program⟩ message next present rfl
      simpa [indexedStep, present] using permitted

/-- The step lands a bucket write that drops the item's entry. -/
def Unlists (config : Config service) (sourceKey uid : String) : Step service → Prop
  | .tick _ => False
  | .start _ => False
  | .run index _ => ∃ worker value condition next, config.workers[index]? = some worker ∧
      worker.program = .put (itemBucketKey sourceKey uid) value condition next ∧
      config.store.admits (itemBucketKey sourceKey uid) condition = true ∧
      Listed config.store sourceKey uid ∧
      value.asEntries.contains (entryId sourceKey uid) = false

/-- A dropped entry belongs to an item that is not held, or whose claim has yet
to list it. -/
def Timely (config : Config service) (step : Step service) : Prop :=
  ∀ sourceKey uid, Unlists config sourceKey uid step → Held config.store sourceKey uid →
    EntryOwed config sourceKey uid

/-! ## What one step does to held and listed items -/

theorem LeaseWrite.held_before {call : Call} {key : String} {before : Option Stored}
    {lease : WorkLease} (write : LeaseWrite call key before (some (.lease lease)))
    (indexed : call.indexed = true) {remaining : LeaseProgram α}
    (owes : OwesEntry call remaining) (leased : lease.state = .leased) :
    (∃ old, before = some (.lease old) ∧ old.state = .leased ∧
      old.sourceKey = lease.sourceKey ∧ old.uid = lease.uid) ∨
    remaining.Owes (Lists lease.sourceKey lease.uid) IndexFailure := by
  cases write with
  | claimed claimable =>
      simp only [Call.indexed] at indexed
      subst indexed
      exact .inr owes
  | renewed read held =>
      obtain ⟨_, state⟩ := WorkLease.isHeldBy_owner held
      obtain ⟨stored, rfl, readAs⟩ := Option.bind_eq_some_iff.mp read
      cases stored with
      | lease old => cases readAs; exact .inl ⟨_, rfl, state, rfl, rfl⟩
      | bucket entries => cases readAs; cases state
      | corrupt => cases readAs
  | released read held => exact absurd leased (WorkLease.released_unleased _ _ _)
  | abandoned read held => exact absurd leased (WorkLease.requeued_unleased _ _)
  | reopened read failed => exact absurd leased (WorkLease.requeued_unleased _ _)
  | reaped read _ swept => exact absurd leased (WorkLease.swept_unleased swept)
  | reapedIndexed read _ swept => exact absurd leased (WorkLease.swept_unleased swept)

section

variable {store : Store String Stored} {config after : Config service} {step : Step service}
  {sourceKey uid : String}

/-- A step leaves the store alone or is an admitted write of one object. -/
theorem store_of_step (sound : Sound leaseContract store config)
    (stepped : config.step step = some after) :
    after.store = config.store ∨
      ∃ index reply call key value condition next,
        step = .run index reply ∧
        config.workers[index]? = some ⟨call, .put key value condition next⟩ ∧
        config.store.admits key condition = true ∧
        after = config.commit index call key (config.store.put key value) (next true) := by
  cases step with
  | tick now =>
      obtain ⟨_, rfl⟩ := Config.step_tick stepped
      exact .inl rfl
  | start call =>
      obtain ⟨_, rfl⟩ := Config.step_start stepped
      exact .inl rfl
  | run index reply =>
      obtain ⟨⟨call, program⟩, present, moved⟩ := Config.step_run stepped
      cases moved with
      | written key value condition next admitted =>
          exact .inr ⟨index, reply, call, key, value, condition, next, rfl, present, admitted, rfl⟩
      | deleted key next =>
          -- no contract permits a deletion
          rcases (sound.meets index _ present).1 none with write | ⟨write, _⟩ <;> cases write
      | _ => exact .inl rfl

/-- A step that takes an item off its bucket is a bucket write without its entry. -/
theorem unlists_of_step (sound : Sound leaseContract store config)
    (stepped : config.step step = some after) (listed : Listed config.store sourceKey uid)
    (dropped : ¬ Listed after.store sourceKey uid) : Unlists config sourceKey uid step := by
  rcases store_of_step sound stepped with same | ⟨index, reply, call, key, value, condition, next,
    rfl, present, admitted, rfl⟩
  · rw [same] at dropped
    exact absurd listed dropped
  · by_cases bucket : key = itemBucketKey sourceKey uid
    · subst bucket
      refine ⟨_, value, condition, next, present, rfl, admitted, listed, ?_⟩
      simpa [Listed, Config.commit, entriesOf] using dropped
    · refine absurd ?_ dropped
      have kept := config.store.put_object_other value (Ne.symm bucket)
      simpa [Listed, Config.commit, kept] using listed

theorem owed_of_held (sound : Sound leaseContract store config)
    (indexed : ∀ worker ∈ config.workers, worker.call.indexed = true)
    (stepped : config.step step = some after) (held : Held after.store sourceKey uid) :
    Held config.store sourceKey uid ∨ EntryOwed after sourceKey uid := by
  rcases store_of_step sound stepped with same | ⟨index, reply, call, key, value, condition, next,
    rfl, present, admitted, rfl⟩
  · rw [same] at held
    exact .inl held
  · obtain ⟨keySource, keyUid, lease, etag, stored, leased, rfl, rfl⟩ := held
    by_cases written : key = leaseKey keySource keyUid
    · subst written
      simp only [Config.commit, Store.put_object_same, Option.some.injEq, Prod.mk.injEq] at stored
      obtain ⟨rfl, _⟩ := stored
      rcases (sound.meets index _ present).1 _ (sound.allows_of_admits admitted) with
        maintenance | ⟨write, owes⟩
      · exact absurd maintenance.isBucketKey (leaseKey_ne_bucketKey keySource keyUid)
      · rcases write.held_before (indexed _ (List.mem_of_getElem? present)) owes leased with
          ⟨old, before, oldLeased, sameSource, sameUid⟩ | owes
        · obtain ⟨object, stored, same⟩ := Option.map_eq_some_iff.mp before
          obtain ⟨value, etag⟩ := object
          cases same
          exact .inl ⟨keySource, keyUid, old, etag, stored, oldLeased, sameSource, sameUid⟩
        · obtain ⟨inside, _⟩ := List.getElem?_eq_some_iff.mp present
          exact .inr ⟨index, ⟨call, next true⟩, by simp [Config.commit, inside], owes⟩
    · have kept := config.store.put_object_other value (Ne.symm written)
      exact .inl ⟨keySource, keyUid, lease, etag, by simpa [Config.commit, kept] using stored,
        leased, rfl, rfl⟩

end

/-! ## Runs -/

/-- The invariant of indexed runs. -/
structure Indexed (config : Config service) : Prop where
  calls : ∀ worker ∈ config.workers, worker.call.indexed = true
  covered : ∀ sourceKey uid, Held config.store sourceKey uid →
    Listed config.store sourceKey uid ∨ EntryOwed config sourceKey uid

theorem Indexed.step {store : Store String Stored} {config after : Config service}
    {step : Step service} (indexed : Indexed config)
    (sound : Sound leaseContract store config) (permitted : indexedStep config step = true)
    (timely : Timely config step) (stepped : config.step step = some after) : Indexed after where
  calls := by
    refine Config.calls_of_step (fun call : Call => call.indexed = true) indexed.calls ?_ stepped
    rintro call rfl
    exact permitted
  covered := by
    intro sourceKey uid held
    have carried (owed : EntryOwed config sourceKey uid) :
        Listed after.store sourceKey uid ∨ EntryOwed after sourceKey uid := by
      rcases owed.step (unexcused_of_indexedStep permitted) stepped with
        owed | ⟨key, value, etag, ⟨rfl, lists⟩, stored⟩
      · exact .inr owed
      · exact .inl (by simpa [Listed, stored, entriesOf] using lists)
    rcases owed_of_held sound indexed.calls stepped held with before | owed
    · rcases indexed.covered sourceKey uid before with listed | owed
      · by_cases kept : Listed after.store sourceKey uid
        · exact .inl kept
        · exact carried (timely sourceKey uid (unlists_of_step sound stepped listed kept) before)
      · exact carried owed
    · exact .inr owed

variable {store : Store String Stored}

/-- Claims and renewals only add entries, so their steps are always timely. -/
theorem timely_of_upserts {step : Step service} (sound : Sound leaseContract store config)
    (upserts : ∀ worker ∈ config.workers, worker.call.unlists = false) : Timely config step := by
  intro sourceKey uid unlists
  cases step with
  | tick now => exact unlists.elim
  | start call => exact unlists.elim
  | run index reply =>
      obtain ⟨⟨call, program⟩, value, condition, next, present, rfl, admitted, listed, dropped⟩ :=
        unlists
      have adds := upserts _ (List.mem_of_getElem? present)
      have permitted := (sound.meets index _ present).1 _ (sound.allows_of_admits admitted)
      exfalso
      unfold Listed at listed
      generalize (config.store.object (itemBucketKey sourceKey uid)).map Prod.fst = before
        at permitted listed
      have bucket : IsBucketKey (itemBucketKey sourceKey uid) := ⟨_, rfl⟩
      generalize itemBucketKey sourceKey uid = key at permitted bucket
      rcases permitted with maintenance | ⟨write, _⟩
      · cases maintenance with
        | upserted id entry =>
            rw [serializeIndexBucket_contains] at dropped
            simp only [Dict.contains, Dict.get?_set] at dropped listed
            split at dropped
            · cases dropped
            · rw [dropped] at listed
              cases listed
        | removed unlists => rw [adds] at unlists; cases unlists
      · cases write <;> exact leaseKey_ne_bucketKey _ _ bucket

/-- Indexed runs of claims and renewals only. -/
def upsertStep (config : Config service) (step : Step service) : Bool :=
  indexedStep config step && match step with
    | .start call => !call.unlists
    | _ => true

theorem timely_of_upsertStep (fresh : store.Fresh) {clock : Int}
    (run : Run (fun config step => upsertStep config step = true) (Config.init store clock) config) :
    Run (fun config step => indexedStep config step = true ∧ Timely config step)
      (Config.init store clock) config := by
  apply run.strengthen
  intro config step run permitted
  have upserts : ∀ worker ∈ config.workers, worker.call.unlists = false := by
    refine run.invariant
      (fun config : Config service => ∀ worker ∈ config.workers, worker.call.unlists = false) ?_ ?_
    · intro worker member
      cases member
    · intro config step after _ upserts permitted stepped
      refine Config.calls_of_step (fun call : Call => call.unlists = false) upserts ?_ stepped
      rintro call rfl
      simpa using (Bool.and_eq_true_iff.mp permitted).2
  exact ⟨(Bool.and_eq_true_iff.mp permitted).1,
    timely_of_upserts (run.sound programOf_meets fresh) upserts⟩

/-! ## A removal that comes too late -/

def claimByA : List (Step service) :=
  [.start (.claim "abc" "uid" "A" 100 "" 0 true), .run 0 true, .run 0 true, .run 0 true,
    .run 0 true]

theorem claimByA_executes :
    ((Config.init Store.empty 0 : Config service).execute upsertStep claimByA).isSome = true := by
  decide

def afterClaimByA : Config service :=
  ((Config.init Store.empty 0 : Config service).execute upsertStep claimByA).get
    claimByA_executes

/-- All calls have ended, and the lease of the item is held. -/
def endsHeld (config : Config service) : Bool :=
  config.workers.all (·.program.isDone) &&
    match config.store.object (leaseKey "abc" "uid") with
    | some (.lease lease, _) =>
        lease.state == .leased && lease.sourceKey == "abc" && lease.uid == "uid"
    | _ => false

theorem endsHeld_quiescent (ends : endsHeld config = true) :
    config.Quiescent ∧ Held config.store "abc" "uid" := by
  simp only [endsHeld, Bool.and_eq_true, List.all_eq_true] at ends
  refine ⟨ends.1, ?_⟩
  have held := ends.2
  split at held
  · next lease etag stored =>
      simp only [Bool.and_eq_true, beq_iff_eq] at held
      exact ⟨"abc", "uid", lease, etag, stored, held.1.1, held.1.2, held.2⟩
  · cases held

theorem afterClaimByA_run :
    Run (fun config step => upsertStep config step = true) (Config.init Store.empty 0)
      afterClaimByA :=
  Run.of_execute (Option.some_get _).symm

/-- "A" abandons its lease, "B" claims it and lists it, and only then does the
removal that belongs to the abandonment reach the bucket. -/
def lateRemoval : List (Step service) :=
  claimByA ++
    [.start (.abandon "abc" "uid" "A" 0 true), .run 1 true, .run 1 true,
      .start (.claim "abc" "uid" "B" 100 "" 0 true), .run 2 true, .run 2 true, .run 2 true,
      .run 2 true,
      .run 1 true, .run 1 true]

theorem lateRemoval_executes :
    ((Config.init Store.empty 0 : Config service).execute indexedStep lateRemoval).isSome =
      true := by
  decide +kernel

def afterLateRemoval : Config service :=
  ((Config.init Store.empty 0 : Config service).execute indexedStep lateRemoval).get
    lateRemoval_executes

end CityPods.WorkLeases
