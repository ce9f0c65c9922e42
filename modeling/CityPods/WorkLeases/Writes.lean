import CityPods.Foundation.Obligation
import CityPods.WorkLeases.Service

/-! # What a call may write

One inversion for the whole ledger: every successful write of every call is
either index maintenance applied to the bucket it read, or one of the lease
transitions below applied to the lease it read. A claim that maintains the index
still owes the entry of its item when its lease is written.
-/

namespace CityPods.WorkLeases

open Foundation

def leaseOf (stored : Option Stored) : Option WorkLease := stored.bind Stored.asLease

inductive LeaseWrite : Call → String → Option Stored → Option Stored → Prop
  | claimed {sourceKey uid owner : String} {ttl : Int} {pipelineVersion : String} {now : Int}
      {updateIndex : Bool} {before : Option Stored}
      (claimable : mayClaim (leaseOf before) pipelineVersion now = true) :
      LeaseWrite (.claim sourceKey uid owner ttl pipelineVersion now updateIndex)
        (leaseKey sourceKey uid) before
        (some (.lease (.held (leaseOf before) sourceKey uid owner ttl pipelineVersion now)))
  | renewed {sourceKey uid owner : String} {ttl now : Int} {updateIndex : Bool}
      {before : Option Stored} {existing : WorkLease} (read : leaseOf before = some existing)
      (held : existing.isHeldBy owner now = true) :
      LeaseWrite (.renew sourceKey uid owner ttl now updateIndex) (leaseKey sourceKey uid)
        before (some (.lease (existing.renewed ttl now)))
  | released {sourceKey uid owner : String} {state : TerminalLeaseState} {now : Int}
      {updateIndex : Bool} {before : Option Stored} {existing : WorkLease}
      (read : leaseOf before = some existing) (held : existing.isHeldBy owner now = true) :
      LeaseWrite (.release sourceKey uid owner state now updateIndex) (leaseKey sourceKey uid)
        before (some (.lease (existing.released state now)))
  | abandoned {sourceKey uid owner : String} {now : Int} {updateIndex : Bool}
      {before : Option Stored} {existing : WorkLease} (read : leaseOf before = some existing)
      (held : existing.isHeldBy owner now = true) :
      LeaseWrite (.abandon sourceKey uid owner now updateIndex) (leaseKey sourceKey uid)
        before (some (.lease (existing.requeued now)))
  | reopened {candidates : List (String × String)} {now : Int} {dryRun : Bool}
      {sourceKey uid : String} {before : Option Stored} {existing : WorkLease}
      (read : leaseOf before = some existing) (failed : existing.state = .failed) :
      LeaseWrite (.requeueFailed candidates now dryRun) (leaseKey sourceKey uid) before
        (some (.lease (existing.requeued now)))
  | reaped {candidates : List (String × String)} {now : Int} {dryRun present : Bool}
      {sourceKey uid : String} {before : Option Stored} {existing settled : WorkLease}
      {outcome : Outcome} (read : leaseOf before = some existing)
      (leased : existing.state = .leased)
      (swept : existing.swept present now = some (settled, outcome)) :
      LeaseWrite (.reap candidates now dryRun) (leaseKey sourceKey uid) before
        (some (.lease settled))
  | reapedIndexed {now : Int} {dryRun present : Bool} {bucketCount : Nat}
      {integrity : Integrity} {sourceKey uid : String} {before : Option Stored}
      {existing settled : WorkLease} {outcome : Outcome}
      (read : leaseOf before = some existing) (leased : existing.state = .leased)
      (swept : existing.swept present now = some (settled, outcome)) :
      LeaseWrite (.reapIndexed now dryRun bucketCount integrity) (leaseKey sourceKey uid)
        before (some (.lease settled))

/-! What the transitions do to a lease. -/

variable {lease : WorkLease} {now : Int}

theorem WorkLease.isHeldBy_owner {owner : String}
    (held : lease.isHeldBy owner now = true) : lease.owner = owner ∧ lease.state = .leased := by
  simp only [WorkLease.isHeldBy, Bool.and_eq_true, beq_iff_eq] at held
  exact held.1

theorem WorkLease.released_unleased (lease : WorkLease) (state : TerminalLeaseState)
    (now : Int) : (lease.released state now).state ≠ .leased := by
  cases state <;> simp [WorkLease.released, TerminalLeaseState.toLeaseState]

theorem WorkLease.requeued_unleased (lease : WorkLease) (now : Int) :
    (lease.requeued now).state ≠ .leased := by
  simp [WorkLease.requeued]

theorem WorkLease.swept_unleased {settled : WorkLease} {present : Bool}
    {outcome : Outcome} (swept : lease.swept present now = some (settled, outcome)) :
    settled.state ≠ .leased := by
  unfold WorkLease.swept at swept
  split at swept
  · cases swept
    exact lease.released_unleased _ now
  · split at swept
    · cases swept
      exact lease.requeued_unleased now
    · cases swept

/-! ## Index maintenance -/

def entriesOf (stored : Option Stored) : Entries := (stored.map Stored.asEntries).getD []

/-- The calls that may take an item off the index. -/
def Call.unlists : Call → Bool
  | .claim _ _ _ _ _ _ _ => false
  | .renew _ _ _ _ _ _ => false
  | _ => true

inductive IndexWrite (call : Call) : String → Option Stored → Option Stored → Prop
  | upserted {n : Nat} {before : Option Stored} (entryId : String) (entry : IndexEntry) :
      IndexWrite call (indexBucketKey n) before
        (some (serializeIndexBucket ((entriesOf before).set entryId entry)))
  | removed {n : Nat} {before : Option Stored} (unlists : call.unlists = true)
      (entryIds : List String) :
      IndexWrite call (indexBucketKey n) before
        (some (serializeIndexBucket (entryIds.foldl Dict.erase (entriesOf before))))

variable {call : Call}

theorem IndexWrite.isBucketKey {key : String} {before after : Option Stored}
    (write : IndexWrite call key before after) : IsBucketKey key := by
  cases write <;> exact ⟨_, rfl⟩

def itemBucketKey (sourceKey uid : String) : String :=
  indexBucketKey (indexBucketFor sourceKey uid indexBucketCount)

/-- Storing `value` under `key` lists the item in its own bucket. -/
def Lists (sourceKey uid key : String) (value : Stored) : Prop :=
  key = itemBucketKey sourceKey uid ∧ value.asEntries.contains (entryId sourceKey uid) = true

/-- The log lines of index maintenance that ran out of attempts. -/
def IndexFailure : Note → Prop
  | .upsertFailed _ _ => True
  | .removeFailed _ _ => True
  | .pruneFailed _ => True
  | .onCompleted _ => False
  | .onRequeued _ => False

instance : DecidablePred IndexFailure := fun note => by
  cases note <;> unfold IndexFailure <;> infer_instance

def OwesEntry (call : Call) (remaining : LeaseProgram α) : Prop :=
  match call with
  | .claim sourceKey uid _ _ _ _ true => remaining.Owes (Lists sourceKey uid) IndexFailure
  | _ => True

theorem OwesEntry.bind {remaining : LeaseProgram α}
    (owes : OwesEntry call remaining) (rest : α → LeaseProgram β) :
    OwesEntry call (remaining.bind rest) := by
  unfold OwesEntry at owes ⊢
  split
  · exact Program.Owes.bind owes rest
  · trivial

def leaseContract (call : Call) : Contract String Stored Query Note α where
  writes _ key before after remaining :=
    IndexWrite call key before after ∨ (LeaseWrite call key before after ∧ OwesEntry call remaining)

section

variable {call : Call} {known : Knowledge String Stored} {own : Writes String Stored}

/-- A program that keeps the contract keeps it as the first part of another. -/
theorem meets_leaseContract_bind {program : LeaseProgram α} {rest : α → LeaseProgram β}
    (meets : program.Meets (leaseContract call) known own)
    (continues : ∀ more own result, known.Le more →
      (rest result).Meets (leaseContract call) more own) :
    (program.bind rest).Meets (leaseContract call) known own :=
  meets.bind (fun _ _ _ _ _ permitted => permitted.imp_right fun write =>
      ⟨write.1, write.2.bind rest⟩)
    fun more own result le _ => continues more own result le

variable {n : Nat} {mutate : Entries → Entries}

theorem mutateIndexBucket_meets (maintains : ∀ before, IndexWrite call (indexBucketKey n) before
      (some (serializeIndexBucket (mutate (entriesOf before))))) (attempts : Nat) :
    (mutateIndexBucket n mutate attempts).Meets (leaseContract call) known own := by
  induction attempts generalizing known own with
  | zero => trivial
  | succ attempts induction =>
      refine ⟨⟨fun before allows => ?_, trivial, fun _ => induction⟩,
        fun value etag => ⟨fun before allows => ?_, trivial, fun _ => induction⟩⟩
      · rw [show before = none from allows]
        exact .inl (maintains none)
      · rw [allows.eq_of_learn]
        exact .inl (maintains (some value))

theorem maintainIndex_meets {failure : Note}
    (maintains : ∀ before, IndexWrite call (indexBucketKey n) before
      (some (serializeIndexBucket (mutate (entriesOf before))))) :
    (maintainIndex n mutate failure).Meets (leaseContract call) known own := by
  refine meets_leaseContract_bind (mutateIndexBucket_meets maintains indexMaxAttempts)
    fun _ _ landed _ => ?_
  cases landed <;> trivial

theorem indexUpsert_meets (sourceKey uid : String) (leaseExpiry : Option Int) (bucketCount : Nat) :
    (indexUpsert sourceKey uid leaseExpiry bucketCount).Meets (leaseContract call) known own :=
  maintainIndex_meets fun _ => .upserted _ _

theorem indexRemove_meets (unlists : call.unlists = true) (sourceKey uid : String)
    (bucketCount : Nat) :
    (indexRemove sourceKey uid bucketCount).Meets (leaseContract call) known own :=
  maintainIndex_meets fun _ => .removed unlists [entryId sourceKey uid]

theorem dropIndexEntries_meets (unlists : call.unlists = true) (n : Nat) (entryIds : List String) :
    (dropIndexEntries n entryIds).Meets (leaseContract call) known own :=
  maintainIndex_meets fun _ => .removed unlists entryIds

/-! ## An upsert owes its entry -/

theorem serializeIndexBucket_contains (entries : Entries) (id : String) :
    (serializeIndexBucket entries).asEntries.contains id = entries.contains id := by
  simp [serializeIndexBucket, Stored.asEntries, Dict.contains]

variable {sourceKey uid : String}

theorem mutateIndexBucket_owes
    (lists : ∀ entries, (mutate entries).contains (entryId sourceKey uid) = true)
    {rest : Bool → LeaseProgram α}
    (exhausted : (rest false).Owes (Lists sourceKey uid) IndexFailure) (attempts : Nat) :
    ((mutateIndexBucket (indexBucketFor sourceKey uid indexBucketCount) mutate attempts).bind
      rest).Owes (Lists sourceKey uid) IndexFailure := by
  have settles : ∀ entries, Lists sourceKey uid (itemBucketKey sourceKey uid)
      (serializeIndexBucket (mutate entries)) := fun entries =>
    ⟨rfl, (serializeIndexBucket_contains _ _).trans (lists entries)⟩
  induction attempts with
  | zero => exact exhausted
  | succ attempts induction =>
      intro reply
      cases reply <;> exact ⟨.inl (settles _), induction⟩

theorem indexUpsert_owes (sourceKey uid : String) (leaseExpiry : Option Int) :
    (indexUpsert sourceKey uid leaseExpiry indexBucketCount).Owes (Lists sourceKey uid)
      IndexFailure := by
  unfold indexUpsert maintainIndex
  refine mutateIndexBucket_owes (fun entries => ?_) ?_ indexMaxAttempts
  · simp [Dict.contains]
  · exact Or.inl trivial

/-! ## Reading a lease -/

theorem meets_readLease_bind {contract : Contract String Stored Query Note α}
    {rest : Option WorkLease × Option ETag → LeaseProgram α} :
    ((readLease sourceKey uid).bind rest).Meets contract known own ↔
      (rest (none, none)).Meets contract known own ∧
        ∀ data etag, (rest (data.asLease, some etag)).Meets contract
          (known.learn (leaseKey sourceKey uid) data etag) own := Iff.rfl

/-- A write over a lease that was just read, as the operations make it. -/
theorem meets_leaseWrite {data : Stored} {etag : ETag}
    {value : Stored} {next : Bool → LeaseProgram α}
    (permitted : LeaseWrite call (leaseKey sourceKey uid) (some data) (some value))
    (owes : OwesEntry call (next true)) (succeeded : ∀ own, (next true).Meets (leaseContract call)
      (known.learn (leaseKey sourceKey uid) data etag) own)
    (failed : (next false).Meets (leaseContract call)
      (known.learn (leaseKey sourceKey uid) data etag) own) :
    (Program.put (leaseKey sourceKey uid) value (.ifMatch etag) next).Meets (leaseContract call)
      (known.learn (leaseKey sourceKey uid) data etag) own := by
  refine ⟨fun before allows => ?_, succeeded _, fun _ => failed⟩
  rw [allows.eq_of_learn]
  exact .inr ⟨permitted, owes⟩

/-! ## The four operations of a worker -/

theorem meets_updateIndex {maintenance : LeaseProgram Unit} {result : α} {updateIndex : Bool}
    (meets : maintenance.Meets (leaseContract call) known own) :
    (if updateIndex = true then maintenance.bind fun _ => .done result
      else .done result).Meets (leaseContract call) known own := by
  cases updateIndex with
  | false => trivial
  | true => exact meets_leaseContract_bind meets fun _ _ _ _ => trivial

theorem claim_owes (sourceKey uid owner : String) (ttl : Int) (pipelineVersion : String)
    (now : Int) (updateIndex : Bool) (leaseExpiry : Option Int) (result : α) :
    OwesEntry (.claim sourceKey uid owner ttl pipelineVersion now updateIndex)
      (if updateIndex = true then
        (indexUpsert sourceKey uid leaseExpiry indexBucketCount).bind fun _ => .done result
      else .done result) := by
  cases updateIndex with
  | false => trivial
  | true => exact (indexUpsert_owes sourceKey uid leaseExpiry).bind _

theorem claim_meets (sourceKey uid owner : String) (ttl : Int) (pipelineVersion : String)
    (now : Int) (updateIndex : Bool) :
    (claim sourceKey uid owner ttl pipelineVersion now updateIndex).Meets
      (leaseContract (.claim sourceKey uid owner ttl pipelineVersion now updateIndex))
      known own := by
  refine meets_readLease_bind.mpr ⟨?_, fun data etag => ?_⟩
  · refine ⟨fun before allows => ?_, ?_, fun _ => trivial⟩
    · rw [show before = none from allows]
      exact .inr ⟨.claimed rfl, claim_owes ..⟩
    · exact meets_updateIndex (indexUpsert_meets ..)
  · cases claimable : mayClaim data.asLease pipelineVersion now with
    | false => simp [claimable, leaseContract]
    | true =>
        simp only [claimable, Bool.not_true, Bool.false_eq_true, if_false]
        exact meets_leaseWrite (.claimed claimable) (claim_owes ..)
          (fun _ => meets_updateIndex (indexUpsert_meets ..)) trivial

theorem renew_meets (sourceKey uid owner : String) (ttl now : Int) (updateIndex : Bool) :
    (renew sourceKey uid owner ttl now updateIndex).Meets
      (leaseContract (.renew sourceKey uid owner ttl now updateIndex)) known own := by
  refine meets_readLease_bind.mpr ⟨trivial, fun data etag => ?_⟩
  cases read : data.asLease with
  | none => trivial
  | some existing =>
      cases held : existing.isHeldBy owner now with
      | false => simp [held, leaseContract]
      | true =>
          simp only [held, Bool.not_true, Bool.false_eq_true, if_false]
          exact meets_leaseWrite (.renewed read held) trivial
            (fun _ => meets_updateIndex (indexUpsert_meets ..)) trivial

theorem release_meets (sourceKey uid owner : String) (state : TerminalLeaseState)
    (now : Int) (updateIndex : Bool) :
    (release sourceKey uid owner state now updateIndex).Meets
      (leaseContract (.release sourceKey uid owner state now updateIndex)) known own := by
  refine meets_readLease_bind.mpr ⟨trivial, fun data etag => ?_⟩
  cases read : data.asLease with
  | none => trivial
  | some existing =>
      cases held : existing.isHeldBy owner now with
      | false => simp [held, leaseContract]
      | true =>
          simp only [held, Bool.not_true, Bool.false_eq_true, if_false]
          exact meets_leaseWrite (.released read held) trivial
            (fun _ => meets_updateIndex (indexRemove_meets rfl ..)) trivial

theorem abandon_meets (sourceKey uid owner : String) (now : Int) (updateIndex : Bool) :
    (abandon sourceKey uid owner now updateIndex).Meets
      (leaseContract (.abandon sourceKey uid owner now updateIndex)) known own := by
  refine meets_readLease_bind.mpr ⟨trivial, fun data etag => ?_⟩
  cases read : data.asLease with
  | none => trivial
  | some existing =>
      cases held : existing.isHeldBy owner now with
      | false => simp [held, leaseContract]
      | true =>
          simp only [held, Bool.not_true, Bool.false_eq_true, if_false]
          exact meets_leaseWrite (.abandoned read held) trivial
            (fun _ => meets_updateIndex (indexRemove_meets rfl ..)) trivial

/-! ## The sweeps -/

theorem requeueFailed_meets (all : List (String × String)) (now : Int) (dryRun : Bool)
    (candidates : List (String × String)) (summary : RequeueSummary) :
    (requeueFailed now dryRun candidates summary).Meets
      (leaseContract (.requeueFailed all now dryRun)) known own := by
  induction candidates generalizing known own summary with
  | nil => trivial
  | cons candidate candidates induction =>
      obtain ⟨sourceKey, uid⟩ := candidate
      refine meets_readLease_bind.mpr ⟨induction _, fun data etag => ?_⟩
      cases read : data.asLease with
      | none => exact induction _
      | some existing =>
          by_cases failed : existing.state = .failed
          · cases dryRun with
            | true => simpa [failed] using induction _
            | false =>
                simp only [failed, bne_self_eq_false, Bool.false_eq_true, if_false]
                refine meets_leaseWrite (.reopened read failed) trivial (fun _ => ?_)
                  (induction _)
                simp only [Program.bind_done, Bool.not_true, Bool.false_eq_true, if_false]
                exact meets_leaseContract_bind (indexRemove_meets rfl ..) fun _ _ _ _ => induction _
          · simpa [failed] using induction _

section

variable {sourceKey uid : String} {existing : WorkLease} {data : Stored} {etag : ETag} {now : Int}
  {dryRun : Bool}

/-- Settling a lease that was just read, for a call that may write what the
sweep makes of it. -/
theorem settleLeased_meets
    (permitted : ∀ present settled outcome, existing.swept present now = some (settled, outcome) →
      LeaseWrite call (leaseKey sourceKey uid) (some data) (some (.lease settled)))
    (free : ∀ remaining : LeaseProgram Outcome, OwesEntry call remaining) :
    (settleLeased sourceKey uid existing etag now dryRun).Meets (leaseContract call)
      (known.learn (leaseKey sourceKey uid) data etag) own := by
  intro present
  simp only [Program.bind_done]
  cases swept : existing.swept present now with
  | none => trivial
  | some settled =>
      cases dryRun with
      | true => trivial
      | false =>
          exact meets_leaseWrite (permitted present _ _ swept) (free _) (fun _ => trivial) trivial

end

theorem invokeReapCallback_meets (outcome : Outcome) (owner : String) (dryRun : Bool) :
    (invokeReapCallback outcome owner dryRun).Meets (leaseContract call) known own := by
  cases dryRun <;> cases outcome <;> trivial

theorem reap_meets (all : List (String × String)) (now : Int) (dryRun : Bool)
    (candidates : List (String × String)) (counts : SweepCounts) :
    (reap now dryRun candidates counts).Meets (leaseContract (.reap all now dryRun))
      known own := by
  induction candidates generalizing known own counts with
  | nil => trivial
  | cons candidate candidates induction =>
      obtain ⟨sourceKey, uid⟩ := candidate
      refine meets_readLease_bind.mpr ⟨induction _, fun data etag => ?_⟩
      cases read : data.asLease with
      | none => exact induction _
      | some existing =>
          by_cases leased : existing.state = .leased
          · simp only [leased, bne_self_eq_false, Bool.false_eq_true, if_false]
            refine meets_leaseContract_bind (settleLeased_meets
              (fun _ _ _ swept => .reaped read leased swept) fun _ => trivial)
              fun _ _ outcome _ => ?_
            cases outcome.isSettled with
            | false => exact induction _
            | true =>
                exact meets_leaseContract_bind (invokeReapCallback_meets ..)
                  fun _ _ _ _ => induction _
          · simpa [leased] using induction _

theorem sweepEntries_meets (now : Int) (dryRun : Bool) (bucketCount : Nat)
    (integrity : Integrity) (entries : List IndexEntry) (sweep : BucketSweep) :
    (sweepEntries now dryRun entries sweep).Meets
      (leaseContract (.reapIndexed now dryRun bucketCount integrity)) known own := by
  induction entries generalizing known own sweep with
  | nil => trivial
  | cons entry entries induction =>
      by_cases blank : entry.sourceKey = "" ∨ entry.uid = ""
      · simpa [sweepEntries, blank] using induction _
      · have named : (entry.sourceKey == "" || entry.uid == "") = false := by simpa using blank
        simp only [sweepEntries, named, Bool.false_eq_true, if_false]
        refine meets_readLease_bind.mpr ⟨induction _, fun data etag => ?_⟩
        cases read : data.asLease with
        | none => exact induction _
        | some existing =>
            by_cases leased : existing.state = .leased
            · simp only [leased, bne_self_eq_false, Bool.false_eq_true, if_false]
              refine meets_leaseContract_bind (settleLeased_meets
                (fun _ _ _ swept => .reapedIndexed read leased swept) fun _ => trivial)
                fun _ _ outcome _ => ?_
              cases outcome.isSettled with
              | false => exact induction _
              | true =>
                  exact meets_leaseContract_bind (invokeReapCallback_meets ..)
                    fun _ _ _ _ => induction _
            · simpa [leased] using induction _

theorem sweepBuckets_meets (now : Int) (dryRun : Bool) (bucketCount : Nat)
    (integrity : Integrity) (buckets : List Nat) (counts : SweepCounts)
    (seen : List (String × String)) :
    (sweepBuckets now dryRun buckets counts seen).Meets
      (leaseContract (.reapIndexed now dryRun bucketCount integrity)) known own := by
  induction buckets generalizing known own counts seen with
  | nil => trivial
  | cons n buckets induction =>
      have swept : ∀ (entries : Entries) (known : Knowledge String Stored),
          ((sweepEntries now dryRun entries.values { counts := counts, seen := seen }).bind
            fun sweep => (do
              if !sweep.drop.isEmpty && !dryRun then dropIndexEntries n sweep.drop
              sweepBuckets now dryRun buckets sweep.counts sweep.seen)).Meets
            (leaseContract (.reapIndexed now dryRun bucketCount integrity)) known own := by
        intro entries known
        refine meets_leaseContract_bind (sweepEntries_meets ..) fun _ _ sweep _ => ?_
        cases !sweep.drop.isEmpty && !dryRun with
        | false => exact induction ..
        | true =>
            exact meets_leaseContract_bind (dropIndexEntries_meets rfl ..)
              fun _ _ _ _ => induction ..
      exact ⟨swept [] known, fun value etag => swept value.asEntries _⟩

theorem integritySweep_meets (now : Int) (dryRun : Bool) (bucketCount : Nat)
    (integrity : Integrity) (partition : Nat) (seen candidates : List (String × String))
    (counts : SweepCounts) (checked : Nat) :
    (integritySweep now dryRun bucketCount partition seen candidates counts checked).Meets
      (leaseContract (.reapIndexed now dryRun bucketCount integrity)) known own := by
  induction candidates generalizing known own counts checked with
  | nil => trivial
  | cons candidate candidates induction =>
      obtain ⟨sourceKey, uid⟩ := candidate
      cases skipped : seen.contains (sourceKey, uid) ||
          indexBucketFor sourceKey uid bucketCount != partition with
      | true =>
          simp only [integritySweep, skipped, if_true]
          exact induction _ _
      | false =>
          simp only [integritySweep, skipped, Bool.false_eq_true, if_false]
          refine meets_readLease_bind.mpr ⟨induction _ _, fun data etag => ?_⟩
          cases read : data.asLease with
          | none => exact induction _ _
          | some existing =>
              by_cases leased : existing.state = .leased
              · simp only [leased, bne_self_eq_false, Bool.false_eq_true, if_false]
                refine meets_leaseContract_bind (settleLeased_meets
                  (fun _ _ _ swept => .reapedIndexed read leased swept) fun _ => trivial)
                  fun _ _ outcome _ => ?_
                have called : ∀ known own, (do
                    if outcome.isSettled then invokeReapCallback outcome existing.owner dryRun
                    integritySweep now dryRun bucketCount partition seen candidates
                      (counts.count outcome) (checked + 1)).Meets
                    (leaseContract (.reapIndexed now dryRun bucketCount integrity))
                    known own := by
                  intro known own
                  cases outcome.isSettled with
                  | false => exact induction _ _
                  | true =>
                      exact meets_leaseContract_bind (invokeReapCallback_meets ..)
                        fun _ _ _ _ => induction _ _
                cases outcome == .inFlight && !dryRun with
                | false => exact called _ _
                | true =>
                    exact meets_leaseContract_bind (indexUpsert_meets ..)
                      fun _ _ _ _ => called _ _
              · simpa [leased] using induction _ _

theorem reapIndexed_meets (now : Int) (dryRun : Bool) (bucketCount : Nat) (integrity : Integrity) :
    (reapIndexed now dryRun bucketCount integrity).Meets
      (leaseContract (.reapIndexed now dryRun bucketCount integrity)) known own := by
  refine meets_leaseContract_bind (sweepBuckets_meets ..) fun _ _ result _ => ?_
  cases integrity with
  | none => trivial
  | some integrity =>
      cases bucketCount with
      | zero => trivial
      | succ count =>
          exact meets_leaseContract_bind (integritySweep_meets ..) fun _ _ _ _ => trivial

end

/-- Every entry point keeps the contract of its call. -/
theorem programOf_meets (call : Call) :
    (programOf call).Meets (leaseContract call) Knowledge.none [] := by
  cases call with
  | claim => exact meets_leaseContract_bind (claim_meets ..) fun _ _ _ _ => trivial
  | renew => exact meets_leaseContract_bind (renew_meets ..) fun _ _ _ _ => trivial
  | release => exact meets_leaseContract_bind (release_meets ..) fun _ _ _ _ => trivial
  | abandon => exact meets_leaseContract_bind (abandon_meets ..) fun _ _ _ _ => trivial
  | requeueFailed =>
      exact meets_leaseContract_bind (requeueFailed_meets ..) fun _ _ _ _ => trivial
  | reap => exact meets_leaseContract_bind (reap_meets ..) fun _ _ _ _ => trivial
  | reapIndexed => exact meets_leaseContract_bind (reapIndexed_meets ..) fun _ _ _ _ => trivial

end CityPods.WorkLeases
