import Mathlib.Data.String.Basic
import CityPods.Foundation.Dict
import CityPods.Foundation.Program
import CityPods.Foundation.Sha

/-! # Work leases and their active-lease index

One object per work item carries its competitive-claim state; a fixed set of
bucket objects lists the items that are currently claimed. A stored object is
represented by what its readers parse it to. Times are microseconds.
-/

namespace CityPods.WorkLeases

open Foundation

def leasePrefix : String := "work-leases"

def indexPrefix : String := "work-leases-index"

def indexBucketCount : Nat := 64

/-- Conflicting index writes are attempted this often. -/
def indexMaxAttempts : Nat := 8

inductive LeaseState
  | queued
  | leased
  | done
  | failed
  deriving DecidableEq, Repr

/-- The states a held lease may be released to. -/
inductive TerminalLeaseState
  | done
  | failed
  deriving DecidableEq, Repr

def TerminalLeaseState.toLeaseState : TerminalLeaseState → LeaseState
  | .done => .done
  | .failed => .failed

/-- The deterministic key of one item. -/
def leaseKey (sourceKey uid : String) : String := s!"{leasePrefix}/{sourceKey}/{uid}.json"

def entryId (sourceKey uid : String) : String := s!"{sourceKey}|{uid}"

def indexBucketFor (sourceKey uid : String) (bucketCount : Nat) : Nat :=
  if bucketCount = 0 then 0 else sha1 (leaseKey sourceKey uid) % bucketCount

/-- `n` in decimal, padded with zeros to four digits. -/
def fourDigits (n : Nat) : String :=
  String.ofList (List.replicate (4 - (toString n).length) '0') ++ toString n

def indexBucketKey (n : Nat) : String := s!"{indexPrefix}/bucket-{fourDigits n}.json"

/-! ## The lease object -/

structure WorkLease where
  sourceKey : String := ""
  uid : String := ""
  state : LeaseState := .queued
  owner : String := ""
  leaseExpiry : Option Int := none
  attempts : Int := 0
  pipelineVersion : String := ""
  updatedAt : Option Int := none
  deriving DecidableEq, Repr

namespace WorkLease

def isExpired (lease : WorkLease) (now : Int) : Bool :=
  lease.leaseExpiry.any fun expiry => decide (expiry ≤ now)

def isClaimable (lease : WorkLease) (now : Int) : Bool :=
  lease.state == .queued || (lease.state == .leased && lease.isExpired now)

/-- A terminal lease of another non-empty recipe, which a claim reopens. -/
def isStaleTerminal (lease : WorkLease) (pipelineVersion : String) : Bool :=
  (lease.state == .done || lease.state == .failed) && pipelineVersion != "" &&
    lease.pipelineVersion != pipelineVersion

/-- The lease is `owner`'s and has not expired: the guard of `renew`,
`release` and `abandon`. -/
def isHeldBy (lease : WorkLease) (owner : String) (now : Int) : Bool :=
  lease.owner == owner && lease.state == .leased && !lease.isExpired now

/-- The lease a successful claim writes over `existing`. -/
def held (existing : Option WorkLease) (sourceKey uid owner : String) (ttl : Int)
    (pipelineVersion : String) (now : Int) : WorkLease where
  sourceKey := sourceKey
  uid := uid
  state := .leased
  owner := owner
  leaseExpiry := some (now + ttl)
  attempts := (match existing with
    | some lease => lease.attempts
    | none => 0) + 1
  pipelineVersion := pipelineVersion
  updatedAt := some now

def renewed (lease : WorkLease) (ttl now : Int) : WorkLease :=
  { lease with leaseExpiry := some (now + ttl), updatedAt := some now }

def released (lease : WorkLease) (state : TerminalLeaseState) (now : Int) : WorkLease :=
  { lease with state := state.toLeaseState, leaseExpiry := none, updatedAt := some now }

/-- Back in the pool without an owner: what `abandon`, `requeue_failed` and the
sweep of an expired lease write. -/
def requeued (lease : WorkLease) (now : Int) : WorkLease :=
  { lease with state := .queued, owner := "", leaseExpiry := none, updatedAt := some now }

end WorkLease

structure IndexEntry where
  sourceKey : String
  uid : String
  leaseExpiry : Option Int
  deriving DecidableEq, Repr

abbrev Entries := Dict String IndexEntry

inductive Stored
  | lease (lease : WorkLease)
  | bucket (entries : Entries)
  | corrupt
  deriving DecidableEq

namespace Stored

/-- A bucket read as a lease is a lease of defaults: each field is absent. -/
def asLease : Stored → Option WorkLease
  | .lease value => some value
  | .bucket _ => some {}
  | .corrupt => none

def asEntries : Stored → Entries
  | .bucket entries => entries
  | .lease _ => []
  | .corrupt => []

end Stored

/-- Code outside the store decides whether an item's artifact exists. -/
inductive Query
  | artifactPresent (sourceKey uid : String)

/-- The log lines of failed index maintenance and the sweeps' callbacks. -/
inductive Note
  | upsertFailed (sourceKey uid : String)
  | removeFailed (sourceKey uid : String)
  | pruneFailed (bucket : Nat)
  | onCompleted (owner : String)
  | onRequeued (owner : String)
  deriving DecidableEq

abbrev LeaseProgram := Program String Stored Query Note

/-! ## Index maintenance -/

def loadIndexBucket (n : Nat) : LeaseProgram (Entries × Option ETag) := do
  match ← Program.getBytes (indexBucketKey n) with
  | none => return ([], none)
  | some (data, etag) => return (data.asEntries, some etag)

def serializeIndexBucket (entries : Entries) : Stored := .bucket entries.sortKeys

def mutateIndexBucket (n : Nat) (mutate : Entries → Entries) : Nat → LeaseProgram Bool
  | 0 => return false
  | attempts + 1 => do
      let (entries, etag) ← loadIndexBucket n
      let landed ← Program.putCas (indexBucketKey n) (serializeIndexBucket (mutate entries))
        (writeCondition etag)
      if landed then return true
      mutateIndexBucket n mutate attempts

/-- Index maintenance is best-effort: a failure is only logged. -/
def maintainIndex (n : Nat) (mutate : Entries → Entries) (failure : Note) :
    LeaseProgram Unit := do
  let landed ← mutateIndexBucket n mutate indexMaxAttempts
  if !landed then Program.report failure

def indexUpsert (sourceKey uid : String) (leaseExpiry : Option Int) (bucketCount : Nat) :
    LeaseProgram Unit :=
  maintainIndex (indexBucketFor sourceKey uid bucketCount)
    (fun entries => entries.set (entryId sourceKey uid)
      { sourceKey := sourceKey, uid := uid, leaseExpiry := leaseExpiry })
    (.upsertFailed sourceKey uid)

def indexRemove (sourceKey uid : String) (bucketCount : Nat) : LeaseProgram Unit :=
  maintainIndex (indexBucketFor sourceKey uid bucketCount)
    (fun entries => entries.erase (entryId sourceKey uid)) (.removeFailed sourceKey uid)

def dropIndexEntries (n : Nat) (entryIds : List String) : LeaseProgram Unit :=
  maintainIndex n (fun entries => entryIds.foldl Dict.erase entries) (.pruneFailed n)

/-! ## The lease contract -/

def readLease (sourceKey uid : String) :
    LeaseProgram (Option WorkLease × Option ETag) := do
  match ← Program.getBytes (leaseKey sourceKey uid) with
  | none => return (none, none)
  | some (data, etag) => return (data.asLease, some etag)

/-- Whether the object read by `claim` may be replaced by a claim. -/
def mayClaim (existing : Option WorkLease) (pipelineVersion : String) (now : Int) : Bool :=
  match existing with
  | none => true
  | some lease => lease.isStaleTerminal pipelineVersion || lease.isClaimable now

def claim (sourceKey uid owner : String) (ttl : Int) (pipelineVersion : String) (now : Int)
    (updateIndex : Bool) : LeaseProgram (Option WorkLease) := do
  let (existing, etag) ← readLease sourceKey uid
  if !mayClaim existing pipelineVersion now then return none
  let held := WorkLease.held existing sourceKey uid owner ttl pipelineVersion now
  let won ← Program.putCas (leaseKey sourceKey uid) (.lease held) (writeCondition etag)
  if !won then return none
  if updateIndex then indexUpsert sourceKey uid held.leaseExpiry indexBucketCount
  return some held

def renew (sourceKey uid owner : String) (ttl now : Int) (updateIndex : Bool) :
    LeaseProgram (Option WorkLease) := do
  match ← readLease sourceKey uid with
  | (some existing, some etag) =>
      if !existing.isHeldBy owner now then return none
      let renewed := existing.renewed ttl now
      let won ← Program.putCas (leaseKey sourceKey uid) (.lease renewed) (.ifMatch etag)
      if !won then return none
      if updateIndex then indexUpsert sourceKey uid renewed.leaseExpiry indexBucketCount
      return some renewed
  | _ => return none

def release (sourceKey uid owner : String) (state : TerminalLeaseState) (now : Int)
    (updateIndex : Bool) : LeaseProgram Bool := do
  match ← readLease sourceKey uid with
  | (some existing, some etag) =>
      if !existing.isHeldBy owner now then return false
      let won ← Program.putCas (leaseKey sourceKey uid) (.lease (existing.released state now))
        (.ifMatch etag)
      if !won then return false
      if updateIndex then indexRemove sourceKey uid indexBucketCount
      return true
  | _ => return false

def abandon (sourceKey uid owner : String) (now : Int) (updateIndex : Bool) :
    LeaseProgram Bool := do
  match ← readLease sourceKey uid with
  | (some existing, some etag) =>
      if !existing.isHeldBy owner now then return false
      let won ← Program.putCas (leaseKey sourceKey uid) (.lease (existing.requeued now))
        (.ifMatch etag)
      if !won then return false
      if updateIndex then indexRemove sourceKey uid indexBucketCount
      return true
  | _ => return false

/-! ## Sweeps -/

structure RequeueSummary where
  scanned : Nat := 0
  requeued : Nat := 0
  skipped : Nat := 0
  conflicts : Nat := 0
  deriving DecidableEq, Repr

def requeueFailed (now : Int) (dryRun : Bool) :
    List (String × String) → RequeueSummary → LeaseProgram RequeueSummary
  | [], summary => return summary
  | (sourceKey, uid) :: candidates, summary => do
      let summary := { summary with scanned := summary.scanned + 1 }
      match ← readLease sourceKey uid with
      | (some existing, some etag) =>
          if existing.state != .failed then
            requeueFailed now dryRun candidates { summary with skipped := summary.skipped + 1 }
          else if dryRun then
            requeueFailed now dryRun candidates { summary with requeued := summary.requeued + 1 }
          else
            let won ← Program.putCas (leaseKey sourceKey uid) (.lease (existing.requeued now))
              (.ifMatch etag)
            if !won then
              requeueFailed now dryRun candidates
                { summary with conflicts := summary.conflicts + 1 }
            else
              indexRemove sourceKey uid indexBucketCount
              requeueFailed now dryRun candidates
                { summary with requeued := summary.requeued + 1 }
      | _ =>
          requeueFailed now dryRun candidates { summary with skipped := summary.skipped + 1 }

inductive Outcome
  | completed
  | requeued
  | inFlight
  | skip
  deriving DecidableEq, Repr

/-- What a sweep makes of a held lease, or `none` if it is still running. -/
def WorkLease.swept (lease : WorkLease) (artifactPresent : Bool) (now : Int) :
    Option (WorkLease × Outcome) :=
  if artifactPresent then some (lease.released .done now, .completed)
  else if lease.isExpired now then some (lease.requeued now, .requeued)
  else none

def settleLeased (sourceKey uid : String) (existing : WorkLease) (etag : ETag) (now : Int)
    (dryRun : Bool) : LeaseProgram Outcome := do
  let present ← Program.askFor (.artifactPresent sourceKey uid)
  match existing.swept present now with
  | none => return .inFlight
  | some (settled, outcome) =>
      if dryRun then return outcome
      let won ← Program.putCas (leaseKey sourceKey uid) (.lease settled) (.ifMatch etag)
      return if won then outcome else .skip

def invokeReapCallback (outcome : Outcome) (owner : String) (dryRun : Bool) :
    LeaseProgram Unit :=
  match dryRun, outcome with
  | false, .completed => Program.report (.onCompleted owner)
  | false, .requeued => Program.report (.onRequeued owner)
  | _, _ => return ()

structure SweepCounts where
  completed : Nat := 0
  requeued : Nat := 0
  inFlight : Nat := 0
  deriving DecidableEq, Repr

def SweepCounts.count (counts : SweepCounts) : Outcome → SweepCounts
  | .completed => { counts with completed := counts.completed + 1 }
  | .requeued => { counts with requeued := counts.requeued + 1 }
  | .inFlight => { counts with inFlight := counts.inFlight + 1 }
  | .skip => counts

def Outcome.isSettled : Outcome → Bool
  | .completed => true
  | .requeued => true
  | .inFlight => false
  | .skip => false

def reap (now : Int) (dryRun : Bool) :
    List (String × String) → SweepCounts → LeaseProgram SweepCounts
  | [], counts => return counts
  | (sourceKey, uid) :: candidates, counts => do
      match ← readLease sourceKey uid with
      | (some existing, some etag) =>
          if existing.state != .leased then
            reap now dryRun candidates counts
          else
            let outcome ← settleLeased sourceKey uid existing etag now dryRun
            if outcome.isSettled then invokeReapCallback outcome existing.owner dryRun
            reap now dryRun candidates (counts.count outcome)
      | _ => reap now dryRun candidates counts

/-- The sweep of one loaded bucket: counts, the entries to drop, and the items
seen so far. -/
structure BucketSweep where
  counts : SweepCounts := {}
  drop : List String := []
  seen : List (String × String) := []
  deriving DecidableEq, Repr

def sweepEntries (now : Int) (dryRun : Bool) :
    List IndexEntry → BucketSweep → LeaseProgram BucketSweep
  | [], sweep => return sweep
  | entry :: entries, sweep => do
      if entry.sourceKey == "" || entry.uid == "" then
        sweepEntries now dryRun entries sweep
      else
        let sweep := { sweep with seen := (entry.sourceKey, entry.uid) :: sweep.seen }
        let dropped := { sweep with drop := sweep.drop ++ [entryId entry.sourceKey entry.uid] }
        match ← readLease entry.sourceKey entry.uid with
        | (some existing, some etag) =>
            if existing.state != .leased then
              sweepEntries now dryRun entries dropped
            else
              let outcome ← settleLeased entry.sourceKey entry.uid existing etag now dryRun
              if outcome.isSettled then
                invokeReapCallback outcome existing.owner dryRun
                sweepEntries now dryRun entries
                  { dropped with counts := sweep.counts.count outcome }
              else
                sweepEntries now dryRun entries
                  { sweep with counts := sweep.counts.count outcome }
        | _ => sweepEntries now dryRun entries dropped

def sweepBuckets (now : Int) (dryRun : Bool) :
    List Nat → SweepCounts → List (String × String) →
      LeaseProgram (SweepCounts × List (String × String))
  | [], counts, seen => return (counts, seen)
  | n :: buckets, counts, seen => do
      let (entries, _) ← loadIndexBucket n
      let sweep ← sweepEntries now dryRun entries.values { counts := counts, seen := seen }
      if !sweep.drop.isEmpty && !dryRun then dropIndexEntries n sweep.drop
      sweepBuckets now dryRun buckets sweep.counts sweep.seen

def integritySweep (now : Int) (dryRun : Bool) (bucketCount partition : Nat)
    (seen : List (String × String)) :
    List (String × String) → SweepCounts → Nat → LeaseProgram (SweepCounts × Nat)
  | [], counts, checked => return (counts, checked)
  | (sourceKey, uid) :: candidates, counts, checked => do
      if seen.contains (sourceKey, uid) ||
          indexBucketFor sourceKey uid bucketCount != partition then
        integritySweep now dryRun bucketCount partition seen candidates counts checked
      else
        let checked := checked + 1
        match ← readLease sourceKey uid with
        | (some existing, some etag) =>
            if existing.state != .leased then
              integritySweep now dryRun bucketCount partition seen candidates counts checked
            else
              let outcome ← settleLeased sourceKey uid existing etag now dryRun
              if outcome == .inFlight && !dryRun then
                indexUpsert sourceKey uid existing.leaseExpiry bucketCount
              if outcome.isSettled then invokeReapCallback outcome existing.owner dryRun
              integritySweep now dryRun bucketCount partition seen candidates
                (counts.count outcome) checked
        | _ => integritySweep now dryRun bucketCount partition seen candidates counts checked

structure IndexedSummary where
  counts : SweepCounts
  indexedBucketsRead : Nat
  integrityChecked : Nat
  deriving DecidableEq, Repr

/-- The optional arguments of the integrity sweep: its candidates and the
partition the caller rotates. -/
abbrev Integrity := Option (List (String × String) × Int)

def reapIndexed (now : Int) (dryRun : Bool) (bucketCount : Nat) (integrity : Integrity) :
    LeaseProgram IndexedSummary := do
  let (counts, seen) ← sweepBuckets now dryRun (List.range bucketCount) {} []
  match integrity, bucketCount with
  | some (candidates, selector), _ + 1 =>
      let partition := (selector % (bucketCount : Int)).toNat
      let (counts, checked) ←
        integritySweep now dryRun bucketCount partition seen candidates counts 0
      return ⟨counts, bucketCount, checked⟩
  | _, _ => return ⟨counts, bucketCount, 0⟩

end CityPods.WorkLeases
